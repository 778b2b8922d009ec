import SwarmAutoscaler.Kernel.Connections
import SwarmAutoscaler.Kernel.Debounce

/-! Which TCP states count down. The condition of the kprobe names three of them, but its
last disjunct is the constant `TCP_LAST_ACK` and always true, so a call in any state other
than `TCP_ESTABLISHED` counts down. -/
namespace Kernel

open Process

/-- The count that the states of the calls amount to, the latest first. -/
def tallied : List UInt8 → Nat
  | [] => 0
  | state :: earlier =>
      if state = tcpEstablished then tallied earlier + 1
      else if closing state then tallied earlier - 1
      else tallied earlier

/-- The stored count is the tally in which nothing but the closing states counts down. -/
def CountsClosing (netns : UInt32) (s : Watched) : Prop :=
  ∃ count ∈ s.maps.connCountMap netns, count.toNat = tallied (s.history.map Sample.state)

/-- The count is strictly between the limits. -/
def Between (maps : Maps) (netns : UInt32) : Prop :=
  ∃ count ∈ maps.connCountMap netns, ∃ lowerLimit ∈ maps.constantsMap 0, ∃ upperLimit ∈ maps.constantsMap 1,
    lowerLimit < count ∧ count < upperLimit

/-- A call in a state that is neither established nor closing does not fill the buffer
while the count is between the limits. -/
def SparesBuffer (netns : UInt32) (s : Watched) : Action → Prop
  | .call state => state ≠ tcpEstablished → closing state = false → Between s.maps netns →
      ((kprobeTcpRecvmsg s.maps netns (some state)).1.bufferMap netns).getD 0 ≠
        (s.maps.bufferMap netns).getD 0 + 1
  | .rearm => True

/-- The claim for all maps with the limits in place and all runs too short to wrap the
count. -/
def OnlyClosingCountsDown : Prop :=
  ∀ (netns : UInt32) (maps : Maps) (actions : List Action), Registered maps netns → actions.length < 2 ^ 32 →
    Throughout (watch netns) (CountsClosing netns) ⟨maps, []⟩ actions ∧
      Meets (watch netns) (SparesBuffer netns) ⟨maps, []⟩ actions

/-- The state of the call is one that the condition names, or there is nothing to count down. -/
def NamedOrNone (netns : UInt32) (s : Watched) : Action → Prop
  | .call state => state = tcpEstablished ∨ closing state = true ∨ s.maps.connCountMap netns = some 0
  | .rearm => True

instance (netns : UInt32) (s : Watched) : DecidablePred (NamedOrNone netns s)
  | .call state => inferInstanceAs (Decidable (state = tcpEstablished ∨ closing state = true ∨ _))
  | .rearm => isTrue trivial

/-- `TCP_FIN_WAIT1`, a state of a connection that this side has closed and in which data may
still arrive. -/
def tcpFinWait1 : UInt8 := 4

/-- An established connection, then a call in `TCP_FIN_WAIT1`. -/
theorem not_onlyClosingCountsDown : ¬ OnlyClosingCountsDown := by
  intro h
  have hCounts := (h 5 fresh [.call tcpEstablished, .call tcpFinWait1] registered_fresh (by decide)).1
  have hRun : run (watch 5) ⟨fresh, []⟩ [.call tcpEstablished, .call tcpFinWait1] = some _ := rfl
  obtain ⟨count, hCount, hTallied⟩ := hCounts.at_finish hRun
  have hZero : count = 0 := (Option.mem_unique hCount rfl)
  rw [hZero] at hTallied
  exact absurd hTallied (by decide)

section Exact

variable {netns : UInt32} {maps : Maps} {s t : Watched} {action : Action} {state : UInt8} {count : UInt32}

/-- What is kept about the maps: the limits are set, the namespace is tracked and counted. -/
structure Counting (netns : UInt32) (s : Watched) : Prop where
  limited : Limited s.maps
  valid : (s.maps.validNetnsMap netns).isSome = true
  counted : (s.maps.connCountMap netns).isSome = true

theorem Counting.step (h : Counting netns s) (hStep : watch netns s action = some t) : Counting netns t := by
  cases action with
  | call state =>
      cases hStep
      refine ⟨?_, ?_, kprobe_connCountMap_isSome h.counted⟩
      · show Limited (kprobeTcpRecvmsg s.maps netns (some state)).1
        rw [Limited, kprobe_constantsMap]
        exact h.limited
      · show ((kprobeTcpRecvmsg s.maps netns (some state)).1.validNetnsMap netns).isSome = true
        rw [kprobe_validNetnsMap]
        exact h.valid
  | rearm =>
      cases hStep
      exact ⟨h.limited, h.valid, h.counted⟩

theorem Counting.next (h : Counting netns s) (hCount : s.maps.connCountMap netns = some count) :
    (kprobeTcpRecvmsg s.maps netns (some state)).1.connCountMap netns = some (tally state count).1 := by
  rw [kprobe_connCountMap_eq h.valid h.limited, countCall, hCount]
  simp

/-- The count moves with the tally of the states exactly in a named state or at 0. -/
theorem moves_iff (hBound : count.toNat + 1 < 2 ^ 32) (earlier : List UInt8)
    (hTallied : count.toNat = tallied earlier) :
    (tally state count).1.toNat = tallied (state :: earlier) ↔
      state = tcpEstablished ∨ closing state = true ∨ count = 0 := by
  have hMove := @toNat_tally state count (Or.inl hBound)
  rw [hMove, tallied, ← hTallied]
  by_cases hEstablished : state = tcpEstablished
  · rw [if_pos hEstablished, if_pos hEstablished]
    exact iff_of_true rfl (Or.inl hEstablished)
  · rw [if_neg hEstablished, if_neg hEstablished, or_iff_right hEstablished]
    cases hClosing : closing state with
    | true => exact iff_of_true rfl (Or.inl rfl)
    | false =>
        have hZero : count = 0 ↔ count.toNat = 0 := by rw [← UInt32.toNat_inj]; rfl
        rw [hZero]
        simp only [Bool.false_eq_true, ↓reduceIte, false_or]
        omega

theorem tallied_le (states : List UInt8) : tallied states ≤ states.length := by
  induction states with
  | nil => exact Nat.le_refl 0
  | cons state earlier ih =>
      rw [tallied, List.length_cons]
      repeat' split
      all_goals omega

theorem countsClosing_step_iff (h : Counting netns s) (hBound : s.history.length + 1 < 2 ^ 32)
    (hCounts : CountsClosing netns s) (hStep : watch netns s action = some t) :
    CountsClosing netns t ↔ NamedOrNone netns s action := by
  cases action with
  | rearm =>
      cases hStep
      exact iff_of_true hCounts trivial
  | call state =>
      cases hStep
      obtain ⟨count, hCount, hTallied⟩ := hCounts
      have hLe := tallied_le (s.history.map Sample.state)
      rw [List.length_map] at hLe
      have hMoves := @moves_iff state count (by omega) _ hTallied
      rw [CountsClosing, h.next hCount, NamedOrNone, hCount, Option.some_inj, ← hMoves]
      simp [sampleOf]

/-- Between the limits there is something to count down. -/
theorem sparesBuffer_of_namedOrNone (h : NamedOrNone netns s action) : SparesBuffer netns s action := by
  cases action with
  | rearm => trivial
  | call state =>
      intro hEstablished hClosing hBetween
      obtain ⟨count, hCount, lowerLimit, _, upperLimit, _, hLower, _⟩ := hBetween
      rcases h with hState | hState | hZero
      · exact absurd hState hEstablished
      · rw [hClosing] at hState
        cases hState
      · rw [Option.mem_unique hCount hZero] at hLower
        exact absurd hLower (UInt32.not_lt.mpr (UInt32.le_iff_toNat_le.mpr (Nat.zero_le _)))

theorem watch_total (netns : UInt32) (s : Watched) (action : Action) : ∃ t, watch netns s action = some t := by
  cases action with
  | call state => exact ⟨_, rfl⟩
  | rearm => exact ⟨_, rfl⟩

theorem history_grows (s : Watched) (action : Action) (t : Watched) (hStep : watch netns s action = some t) :
    t.history.length ≤ s.history.length + 1 := by
  cases action with
  | call state =>
      cases hStep
      exact Nat.le_refl _
  | rearm =>
      cases hStep
      exact Nat.le_succ _

/-- In every run of calls and re-arms: only closing states count down, and no other state
fills the buffer between the limits, exactly when every call in another state finds the
count at 0. -/
theorem onlyClosingCountsDown_iff {actions : List Action} (hRegistered : Registered maps netns)
    (hShort : actions.length < 2 ^ 32) :
    (Throughout (watch netns) (CountsClosing netns) ⟨maps, []⟩ actions ∧
        Meets (watch netns) (SparesBuffer netns) ⟨maps, []⟩ actions) ↔
      Meets (watch netns) (NamedOrNone netns) ⟨maps, []⟩ actions := by
  obtain ⟨hLower, hUpper, hLength, hValid, hZero⟩ := hRegistered
  have hInv : Counting netns ⟨maps, []⟩ := ⟨⟨hLower, hUpper, hLength⟩, hValid, by rw [hZero]; rfl⟩
  have hStart : CountsClosing netns ⟨maps, []⟩ := ⟨0, hZero, rfl⟩
  have hBound : Meets (watch netns) (fun s _ => s.history.length < 2 ^ 32 - 1) ⟨maps, []⟩ actions := by
    refine meets_of_growth (fun s action t => history_grows s action t) ?_
    show 0 + actions.length ≤ 2 ^ 32 - 1
    omega
  obtain ⟨finish, hRun⟩ := exists_run (watch_total netns) ⟨maps, []⟩ actions
  have hExact := throughout_iff_meets (fun s action t h _ _ hStep => Counting.step h hStep)
    (fun s action t h hSmall hCounts hStep => countsClosing_step_iff h (by omega) hCounts hStep)
    hInv hStart hBound hRun
  rw [hExact, and_iff_left_iff_imp]
  intro hNamed
  exact hNamed.mono fun s action h => sparesBuffer_of_namedOrNone h

/-- A connection that is read in `TCP_CLOSE_WAIT` and then, when nothing is counted any
more, in `TCP_FIN_WAIT1`. -/
theorem onlyClosingCountsDown_fresh :
    Throughout (watch 5) (CountsClosing 5) ⟨fresh, []⟩
      [.call tcpEstablished, .call tcpCloseWait, .call tcpFinWait1] ∧
      Meets (watch 5) (SparesBuffer 5) ⟨fresh, []⟩ [.call tcpEstablished, .call tcpCloseWait, .call tcpFinWait1] :=
  (onlyClosingCountsDown_iff registered_fresh (by decide)).mpr (by decide)

end Exact

end Kernel
