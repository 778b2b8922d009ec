import Mathlib.Data.List.ReduceOption
import SwarmAutoscaler.Kernel.Maps
import SwarmAutoscaler.Process.Run

/-! Maps in which entries of a namespace are absent, beside maps in which they are 0. An
absent `buffer_map` entry makes no difference. The first call on an absent `conn_count_map`
entry counts on a variable of its own, so a connection that it reports is lost. -/
namespace Kernel

open Process

/-- The maps, and the events so far with the latest first. -/
structure Traced where
  maps : Maps
  events : List Data := []

/-- A call of the kprobe, with its event put before the earlier ones. -/
def trace (netns : UInt32) (s : Traced) (sk : Option UInt8) : Traced :=
  let called := kprobeTcpRecvmsg s.maps netns sk
  ⟨called.1, called.2.toList ++ s.events⟩

/-- The same calls on two sets of maps. -/
structure Twins where
  sparse : Traced
  full : Traced

/-- The same call on both sets of maps. -/
def callBoth (netns : UInt32) (s : Twins) (sk : Option UInt8) : Option Twins :=
  some ⟨trace netns s.sparse sk, trace netns s.full sk⟩

/-- The entries of the namespace in `conn_count_map` and `buffer_map`, put to 0 where absent. -/
def present (maps : Maps) (netns : UInt32) : Maps :=
  (maps.putConnCount netns (some ((maps.connCountMap netns).getD 0))).putBuffer netns
    (some ((maps.bufferMap netns).getD 0))

/-- The same lookups, with an absent count or buffer read as 0. -/
structure Alike (maps maps' : Maps) : Prop where
  connCountMap : ∀ key, (maps'.connCountMap key).getD 0 = (maps.connCountMap key).getD 0
  bufferMap : ∀ key, (maps'.bufferMap key).getD 0 = (maps.bufferMap key).getD 0
  constantsMap : maps'.constantsMap = maps.constantsMap
  scalingMap : maps'.scalingMap = maps.scalingMap
  validNetnsMap : maps'.validNetnsMap = maps.validNetnsMap

/-- Nobody who reads a missing entry as 0 can tell the two sets of maps apart, and the same
events have been put out. -/
def Indistinct (s : Twins) : Prop := Alike s.sparse.maps s.full.maps ∧ s.full.events = s.sparse.events

/-- The maps as they are, beside the maps with the missing entries put to 0. -/
def twins (maps : Maps) (netns : UInt32) : Twins := ⟨⟨maps, []⟩, ⟨present maps netns, []⟩⟩

/-- For a valid namespace a missing entry of a count or a buffer works as an entry that
holds 0, in every run of calls. -/
def AbsentIsZero : Prop :=
  ∀ (maps : Maps) (netns : UInt32) (calls : List (Option UInt8)), (maps.validNetnsMap netns).isSome = true →
    Throughout (callBoth netns) Indistinct (twins maps netns) calls

/-- The first call that finds a socket reports an established connection, and there is no
count yet. -/
def LosesFirst (maps : Maps) (netns : UInt32) (calls : List (Option UInt8)) : Prop :=
  Limited maps ∧ maps.connCountMap netns = none ∧ calls.reduceOption.head? = some tcpEstablished

instance (maps : Maps) (netns : UInt32) (calls : List (Option UInt8)) : Decidable (LosesFirst maps netns calls) :=
  inferInstanceAs (Decidable (_ ∧ _ ∧ _))

/-- Namespace 5 is tracked, with limits 1 and 4 and blocks of 2 samples, and has no entry. -/
def untouched : Maps where
  constantsMap := fun key =>
    if key = 0 then some 1 else if key = 1 then some 4 else if key = 2 then some 2 else none
  validNetnsMap := fun netns => if netns = 5 then some 1 else none

theorem not_absentIsZero : ¬ AbsentIsZero := by
  intro h
  have hAfter := (h untouched 5 [some tcpEstablished] rfl).2 _ rfl
  have hCount := hAfter.1.connCountMap 5
  exact absurd hCount (by decide)

section Alike

variable {maps maps' : Maps} {netns : UInt32} {state : UInt8} {s t : Twins} {sk : Option UInt8}

theorem alike_present : Alike maps (present maps netns) where
  connCountMap key := by
    by_cases h : key = netns
    · subst h
      simp [present]
    · simp [present, Function.update_of_ne h]
  bufferMap key := by
    by_cases h : key = netns
    · subst h
      simp [present]
    · simp [present, Function.update_of_ne h]
  constantsMap := rfl
  scalingMap := rfl
  validNetnsMap := rfl

theorem Alike.limited (h : Alike maps maps') : Limited maps' ↔ Limited maps := by
  rw [Limited, Limited, h.constantsMap]

theorem Alike.putConnCount (h : Alike maps maps') (count : UInt32) :
    Alike (maps.putConnCount netns (some count)) (maps'.putConnCount netns (some count)) where
  connCountMap key := by
    by_cases hKey : key = netns
    · subst hKey
      simp
    · simp [Function.update_of_ne hKey, h.connCountMap key]
  bufferMap := h.bufferMap
  constantsMap := h.constantsMap
  scalingMap := h.scalingMap
  validNetnsMap := h.validNetnsMap

theorem Alike.putBuffer (h : Alike maps maps') (buffer : UInt32) :
    Alike (maps.putBuffer netns (some buffer)) (maps'.putBuffer netns (some buffer)) where
  connCountMap := h.connCountMap
  bufferMap key := by
    by_cases hKey : key = netns
    · subst hKey
      simp
    · simp [Function.update_of_ne hKey, h.bufferMap key]
  constantsMap := h.constantsMap
  scalingMap := h.scalingMap
  validNetnsMap := h.validNetnsMap

theorem Alike.putScaling (h : Alike maps maps') (value : Option UInt32) :
    Alike (maps.putScaling netns value) (maps'.putScaling netns value) :=
  { h with scalingMap := by rw [Maps.putScaling_scalingMap, Maps.putScaling_scalingMap, h.scalingMap] }

/-- The buffering part reads an absent buffer as 0 and writes it in any case. -/
theorem Alike.bufferSample (h : Alike maps maps') (lowerLimit upperLimit bufferLength newValue : UInt32) :
    Alike (bufferSample maps netns lowerLimit upperLimit bufferLength newValue).1
        (bufferSample maps' netns lowerLimit upperLimit bufferLength newValue).1 ∧
      (bufferSample maps' netns lowerLimit upperLimit bufferLength newValue).2 =
        (bufferSample maps netns lowerLimit upperLimit bufferLength newValue).2 := by
  unfold Kernel.bufferSample
  dsimp only
  rw [h.bufferMap netns]
  generalize (if newValue ≤ lowerLimit ∨ upperLimit ≤ newValue then (maps.bufferMap netns).getD 0 + 1 else 0) =
    next
  split
  · exact ⟨(h.putScaling _).putBuffer 0, rfl⟩
  · exact ⟨h.putBuffer _, rfl⟩

theorem tally_zero (h : state ≠ tcpEstablished) : tally state 0 = (0, 0) := by
  rw [tally_other h]
  rfl

/-- With a count in both maps, or a first call that reports no connection, the counting
parts agree. -/
theorem Alike.countCall (h : Alike maps maps') (hFull : (maps'.connCountMap netns).isSome = true)
    (hKept : (maps.connCountMap netns).isSome = true ∨ state ≠ tcpEstablished) :
    Alike (countCall maps netns state).1 (countCall maps' netns state).1 ∧
      (countCall maps' netns state).2 = (countCall maps netns state).2 := by
  obtain ⟨count', hCount'⟩ := Option.isSome_iff_exists.mp hFull
  have hSame := h.connCountMap netns
  rw [hCount', Option.getD_some] at hSame
  unfold Kernel.countCall
  rw [hCount']
  cases hCount : maps.connCountMap netns with
  | none =>
      have hState : state ≠ tcpEstablished := hKept.resolve_left (by simp [hCount])
      rw [hCount, Option.getD_none] at hSame
      subst hSame
      dsimp only
      rw [tally_zero hState]
      exact ⟨h.putConnCount 0, rfl⟩
  | some count =>
      rw [hCount, Option.getD_some] at hSame
      subst hSame
      exact ⟨h.putConnCount _, rfl⟩

/-- Indistinct maps in which the namespace is tracked, and counted on the full side. -/
structure Twinned (netns : UInt32) (s : Twins) : Prop where
  indistinct : Indistinct s
  valid : (s.sparse.maps.validNetnsMap netns).isSome = true
  counted : (s.full.maps.connCountMap netns).isSome = true

theorem Twinned.start (h : (maps.validNetnsMap netns).isSome = true) : Twinned netns (twins maps netns) :=
  ⟨⟨alike_present, rfl⟩, h, by simp [twins, present]⟩

/-- What a call on both sides does: nothing, or the same with an equal count. -/
theorem Twinned.called (h : Twinned netns s) (hLimited : Limited s.sparse.maps)
    (hKept : (s.sparse.maps.connCountMap netns).isSome = true ∨ state ≠ tcpEstablished) :
    Alike (kprobeTcpRecvmsg s.sparse.maps netns (some state)).1
      (kprobeTcpRecvmsg s.full.maps netns (some state)).1 ∧
      (kprobeTcpRecvmsg s.full.maps netns (some state)).2 =
        (kprobeTcpRecvmsg s.sparse.maps netns (some state)).2 := by
  have hAlike := h.indistinct.1
  obtain ⟨hLower, hUpper, hLength⟩ := hLimited
  obtain ⟨lowerLimit, hLower⟩ := Option.isSome_iff_exists.mp hLower
  obtain ⟨upperLimit, hUpper⟩ := Option.isSome_iff_exists.mp hUpper
  obtain ⟨bufferLength, hLength⟩ := Option.isSome_iff_exists.mp hLength
  have hFull : (s.full.maps.validNetnsMap netns).isSome = true := by
    rw [hAlike.validNetnsMap]
    exact h.valid
  obtain ⟨hCounted, hValue⟩ := hAlike.countCall h.counted hKept
  rw [kprobe_of_limits h.valid hLower hUpper hLength,
    kprobe_of_limits hFull (hAlike.constantsMap ▸ hLower) (hAlike.constantsMap ▸ hUpper)
      (hAlike.constantsMap ▸ hLength), hCounted.scalingMap, hValue]
  split
  · exact ⟨hCounted, rfl⟩
  · exact hCounted.bufferSample lowerLimit upperLimit bufferLength _

/-- The call counts a connection that no entry keeps. -/
def Loses (maps : Maps) (netns : UInt32) (sk : Option UInt8) : Prop :=
  Limited maps ∧ maps.connCountMap netns = none ∧ sk = some tcpEstablished

theorem Twinned.step (h : Twinned netns s) (hKeeps : ¬ Loses s.sparse.maps netns sk) :
    Twinned netns ⟨trace netns s.sparse sk, trace netns s.full sk⟩ := by
  have hAlike := h.indistinct.1
  have hSame : Alike (kprobeTcpRecvmsg s.sparse.maps netns sk).1 (kprobeTcpRecvmsg s.full.maps netns sk).1 ∧
      (kprobeTcpRecvmsg s.full.maps netns sk).2 = (kprobeTcpRecvmsg s.sparse.maps netns sk).2 := by
    cases sk with
    | none => exact ⟨hAlike, rfl⟩
    | some state =>
        by_cases hLimited : Limited s.sparse.maps
        · refine h.called hLimited ?_
          by_cases hState : state = tcpEstablished
          · refine Or.inl (Option.isSome_iff_ne_none.mpr fun hNone => hKeeps ⟨hLimited, hNone, ?_⟩)
            rw [hState]
          · exact Or.inr hState
        · rw [kprobe_unlimited hLimited, kprobe_unlimited (mt hAlike.limited.mp hLimited)]
          exact ⟨hAlike, rfl⟩
  refine ⟨⟨hSame.1, ?_⟩, ?_, kprobe_connCountMap_isSome h.counted⟩
  · show (kprobeTcpRecvmsg s.full.maps netns sk).2.toList ++ s.full.events = _
    rw [hSame.2, h.indistinct.2]
    rfl
  · show ((kprobeTcpRecvmsg s.sparse.maps netns sk).1.validNetnsMap netns).isSome = true
    rw [kprobe_validNetnsMap]
    exact h.valid

/-- A lost connection shows at once: one side counts 0, the other 1. -/
theorem Twinned.distinct (h : Twinned netns s) (hLoses : Loses s.sparse.maps netns sk) :
    ¬ Indistinct ⟨trace netns s.sparse sk, trace netns s.full sk⟩ := by
  obtain ⟨hLimited, hNone, rfl⟩ := hLoses
  have hAlike := h.indistinct.1
  obtain ⟨count, hCount⟩ := Option.isSome_iff_exists.mp h.counted
  have hZero := hAlike.connCountMap netns
  rw [hCount, hNone] at hZero
  have hZero : count = 0 := hZero
  subst hZero
  have hFull : (s.full.maps.validNetnsMap netns).isSome = true := by
    rw [hAlike.validNetnsMap]
    exact h.valid
  intro hSame
  have hCounts := hSame.1.connCountMap netns
  simp only [trace] at hCounts
  rw [kprobe_connCountMap_eq hFull (hAlike.limited.mpr hLimited), kprobe_connCountMap_eq h.valid hLimited,
    countCall, countCall, hCount, hNone] at hCounts
  simp only [Maps.putConnCount_connCountMap, Function.update_self, Option.getD_some] at hCounts
  exact absurd hCounts (by decide)

/-- A call that loses nothing leaves open whether a later one will. -/
theorem losesFirst_cons_iff (hValid : (maps.validNetnsMap netns).isSome = true) (hKeeps : ¬ Loses maps netns sk)
    (rest : List (Option UInt8)) :
    LosesFirst maps netns (sk :: rest) ↔ LosesFirst (kprobeTcpRecvmsg maps netns sk).1 netns rest := by
  cases sk with
  | none =>
      rw [kprobe_unread, LosesFirst, LosesFirst, List.reduceOption_cons_of_none]
  | some state =>
      by_cases hLimited : Limited maps
      · have hCounted : ((kprobeTcpRecvmsg maps netns (some state)).1.connCountMap netns).isSome = true := by
          obtain ⟨count, newValue, hCount⟩ := countCall_eq maps netns state
          rw [kprobe_connCountMap_eq hValid hLimited, hCount]
          simp
        refine iff_of_false (fun hFirst => ?_) fun hLater => ?_
        · obtain ⟨_, hNone, hHead⟩ := hFirst
          rw [List.reduceOption_cons_of_some, List.head?_cons] at hHead
          exact hKeeps ⟨hLimited, hNone, hHead⟩
        · rw [hLater.2.1] at hCounted
          cases hCounted
      · rw [kprobe_unlimited hLimited]
        exact iff_of_false (fun hFirst => hLimited hFirst.1) fun hLater => hLimited hLater.1

theorem indistinct_of_twinned (h : Twinned netns s) (calls : List (Option UInt8)) :
    Throughout (callBoth netns) Indistinct s calls ↔ ¬ LosesFirst s.sparse.maps netns calls := by
  induction calls generalizing s with
  | nil => exact iff_of_true h.indistinct (by simp [LosesFirst])
  | cons sk rest ih =>
      by_cases hLoses : Loses s.sparse.maps netns sk
      · obtain ⟨hLimited, hNone, rfl⟩ := hLoses
        have hFirst : LosesFirst s.sparse.maps netns (some tcpEstablished :: rest) := by
          refine ⟨hLimited, hNone, ?_⟩
          rw [List.reduceOption_cons_of_some, List.head?_cons]
        exact iff_of_false (fun hAll => h.distinct ⟨hLimited, hNone, rfl⟩ (hAll.2 _ rfl).at_start)
          (not_not_intro hFirst)
      · have hRest := ih (h.step hLoses)
        rw [losesFirst_cons_iff h.valid hLoses rest]
        constructor
        · intro hAll
          exact hRest.mp (hAll.2 _ rfl)
        · intro hKept
          refine ⟨h.indistinct, fun next hStep => ?_⟩
          cases hStep
          exact hRest.mpr hKept

end Alike

/-- Absent entries behave like zero, call by call, exactly when no count is lost by the first call. -/
theorem absentIsZero_iff (maps : Maps) (netns : UInt32) (calls : List (Option UInt8))
    (hValid : (maps.validNetnsMap netns).isSome = true) :
    Throughout (callBoth netns) Indistinct (twins maps netns) calls ↔ ¬ LosesFirst maps netns calls :=
  indistinct_of_twinned (Twinned.start hValid) calls

theorem absentIsZero_untouched :
    Throughout (callBoth 5) Indistinct (twins untouched 5) [none, some tcpClose, some tcpEstablished] :=
  (absentIsZero_iff untouched 5 [none, some tcpClose, some tcpEstablished] rfl).mpr (by decide)

end Kernel
