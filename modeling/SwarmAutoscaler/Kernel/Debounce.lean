import SwarmAutoscaler.Kernel.Maps
import SwarmAutoscaler.Process.Run

/-! The debouncer of the kprobe for one namespace. The kernel keeps one number and looks at
the last sample alone; that an event speaks for a whole block of samples on one side of the
limits holds because the count moves by at most one from sample to sample. -/
namespace Kernel

open Process

/-- One call of the kprobe for the namespace; `count` is the count after it. -/
structure Sample where
  state : UInt8
  armed : Bool
  count : UInt32
  event : Option Data
  deriving DecidableEq, Repr

/-- The maps, and the samples so far with the latest first. -/
structure Watched where
  maps : Maps
  history : List Sample := []

/-- A call of the kprobe in some state of its socket, or a re-arm by the Monitor. -/
inductive Action where
  | call (state : UInt8)
  | rearm

/-- What a call of the kprobe on these maps is seen to do. -/
def sampleOf (maps : Maps) (netns : UInt32) (state : UInt8) : Sample where
  state := state
  armed := maps.scalingMap netns != some 1
  count := ((kprobeTcpRecvmsg maps netns (some state)).1.connCountMap netns).getD 0
  event := (kprobeTcpRecvmsg maps netns (some state)).2

/-- A call is noted as a sample; a re-arm clears the flag of the namespace. -/
def watch (netns : UInt32) (s : Watched) : Action → Option Watched
  | .call state => some
      ⟨(kprobeTcpRecvmsg s.maps netns (some state)).1, sampleOf s.maps netns state :: s.history⟩
  | .rearm => some { s with maps := addNamespaceToScalingMap s.maps netns }

section Blocks

variable (lowerLimit upperLimit : UInt32)

/-- The count after the call is at one of the limits or beyond it. -/
def Sample.outOfRange (sample : Sample) : Bool := sample.count ≤ lowerLimit || upperLimit ≤ sample.count

/-- An armed sample in range, or one that emitted an event. -/
def Sample.resets (sample : Sample) : Bool :=
  (sample.armed && !sample.outOfRange lowerLimit upperLimit) || sample.event.isSome

/-- The armed samples out of range since the last reset or the registration. -/
def block (history : List Sample) : List Sample :=
  (history.takeWhile fun sample => !sample.resets lowerLimit upperLimit).filter fun sample =>
    sample.armed && sample.outOfRange lowerLimit upperLimit

/-- All samples are on the side that the message names. -/
def Message.names (message : Message) (samples : List Sample) : Prop :=
  match message with
  | .lower => ∀ sample ∈ samples, sample.count ≤ lowerLimit
  | .upper => ∀ sample ∈ samples, upperLimit ≤ sample.count

instance (message : Message) (samples : List Sample) :
    Decidable (message.names lowerLimit upperLimit samples) :=
  match message with
  | .lower => inferInstanceAs (Decidable (∀ sample ∈ samples, sample.count ≤ lowerLimit))
  | .upper => inferInstanceAs (Decidable (∀ sample ∈ samples, upperLimit ≤ sample.count))

variable {lowerLimit upperLimit} {sample : Sample} {history : List Sample}

theorem block_cons_of_resets (h : sample.resets lowerLimit upperLimit = true) :
    block lowerLimit upperLimit (sample :: history) = [] := by
  simp [block, h]

theorem block_cons_of_counts (h : sample.resets lowerLimit upperLimit = false)
    (hArmed : sample.armed = true) (hOut : sample.outOfRange lowerLimit upperLimit = true) :
    block lowerLimit upperLimit (sample :: history) = sample :: block lowerLimit upperLimit history := by
  simp [block, h, hArmed, hOut]

theorem block_cons_of_unarmed (h : sample.resets lowerLimit upperLimit = false) (hArmed : sample.armed = false) :
    block lowerLimit upperLimit (sample :: history) = block lowerLimit upperLimit history := by
  simp [block, h, hArmed]

end Blocks

/-- The calls so far in `TCP_ESTABLISHED`, each of which counts up. -/
def established (history : List Sample) : Nat :=
  history.countP fun sample => sample.state == tcpEstablished

/-- The limits are set and nothing of the namespace is buffered. -/
structure Configured (maps : Maps) (netns lowerLimit upperLimit bufferLength : UInt32) : Prop where
  lower : maps.constantsMap 0 = some lowerLimit
  upper : maps.constantsMap 1 = some upperLimit
  length : maps.constantsMap 2 = some bufferLength
  noBuffer : maps.bufferMap netns = none

section Invariant

variable {netns lowerLimit upperLimit bufferLength count : UInt32} {maps : Maps} {s t : Watched} {state : UInt8}

/-- What the maps say about the samples so far. -/
structure Tuned (netns lowerLimit upperLimit bufferLength : UInt32) (s : Watched) (count : UInt32) : Prop where
  lower : s.maps.constantsMap 0 = some lowerLimit
  upper : s.maps.constantsMap 1 = some upperLimit
  length : s.maps.constantsMap 2 = some bufferLength
  valid : (s.maps.validNetnsMap netns).isSome = true
  counted : s.maps.connCountMap netns = some count
  bounded : count.toNat ≤ established s.history
  buffered : ((s.maps.bufferMap netns).getD 0).toNat = (block lowerLimit upperLimit s.history).length
  short : (block lowerLimit upperLimit s.history).length < bufferLength.toNat
  disarmed : s.maps.scalingMap netns = some 1 → block lowerLimit upperLimit s.history = []
  sided : block lowerLimit upperLimit s.history ≠ [] →
    (Message.lower.names lowerLimit upperLimit (block lowerLimit upperLimit s.history) ∧ count ≤ lowerLimit) ∨
      (Message.upper.names lowerLimit upperLimit (block lowerLimit upperLimit s.history) ∧ upperLimit ≤ count)

/-- Between two blocks nothing is buffered, and the namespace may be armed or not. -/
theorem tuned_of_empty (hPositive : 1 ≤ bufferLength.toNat) (hLower : s.maps.constantsMap 0 = some lowerLimit)
    (hUpper : s.maps.constantsMap 1 = some upperLimit) (hLength : s.maps.constantsMap 2 = some bufferLength)
    (hValid : (s.maps.validNetnsMap netns).isSome = true) (hCounted : s.maps.connCountMap netns = some count)
    (hBounded : count.toNat ≤ established s.history) (hBuffered : ((s.maps.bufferMap netns).getD 0).toNat = 0)
    (hBlock : block lowerLimit upperLimit s.history = []) :
    Tuned netns lowerLimit upperLimit bufferLength s count := by
  refine ⟨hLower, hUpper, hLength, hValid, hCounted, hBounded, ?_, ?_, fun _ => hBlock,
    fun hNe => absurd hBlock hNe⟩
  · rw [hBlock]
    exact hBuffered
  · rw [hBlock]
    exact hPositive

/-- The kprobe on a tuned namespace: count, and buffer the sample if it is armed. -/
theorem kprobe_eq (h : Tuned netns lowerLimit upperLimit bufferLength s count) :
    kprobeTcpRecvmsg s.maps netns (some state) =
      if s.maps.scalingMap netns = some 1 then
        (s.maps.putConnCount netns (some (tally state count).1), none)
      else bufferSample (s.maps.putConnCount netns (some (tally state count).1)) netns lowerLimit upperLimit
        bufferLength (tally state count).1 := by
  obtain ⟨value, hValid⟩ := Option.isSome_iff_exists.mp h.valid
  simp only [kprobeTcpRecvmsg, hValid, h.lower, h.upper, h.length, countCall, h.counted,
    Maps.putConnCount_scalingMap, tally_fst_eq_snd]

theorem bufferSample_inRange {newValue : UInt32} (hLength : 1 ≤ bufferLength.toNat)
    (hIn : ¬ (newValue ≤ lowerLimit ∨ upperLimit ≤ newValue)) :
    bufferSample maps netns lowerLimit upperLimit bufferLength newValue =
      (maps.putBuffer netns (some 0), none) := by
  have hZero : ¬ (0 : UInt32) = bufferLength := by
    rintro rfl
    exact absurd hLength (by decide)
  simp only [bufferSample, if_neg hIn, if_neg hZero]

theorem bufferSample_emits {newValue : UInt32} (hOut : newValue ≤ lowerLimit ∨ upperLimit ≤ newValue)
    (hFull : (maps.bufferMap netns).getD 0 + 1 = bufferLength) :
    bufferSample maps netns lowerLimit upperLimit bufferLength newValue =
      ((maps.putScaling netns (some 1)).putBuffer netns (some 0),
        some ⟨netns, if newValue ≤ lowerLimit then .lower else .upper⟩) := by
  simp only [bufferSample, if_pos hOut, if_pos hFull]

theorem bufferSample_collects {newValue : UInt32} (hOut : newValue ≤ lowerLimit ∨ upperLimit ≤ newValue)
    (hMore : (maps.bufferMap netns).getD 0 + 1 ≠ bufferLength) :
    bufferSample maps netns lowerLimit upperLimit bufferLength newValue =
      (maps.putBuffer netns (some ((maps.bufferMap netns).getD 0 + 1)), none) := by
  simp only [bufferSample, if_pos hOut, if_neg hMore]

theorem count_sampleOf (h : Tuned netns lowerLimit upperLimit bufferLength s count) :
    (sampleOf s.maps netns state).count = (tally state count).1 := by
  rw [sampleOf, kprobe_eq h]
  split
  · simp
  · rw [bufferSample_connCountMap]
    simp

theorem outOfRange_iff {sample : Sample} : sample.outOfRange lowerLimit upperLimit = true ↔
    sample.count ≤ lowerLimit ∨ upperLimit ≤ sample.count := by
  simp [Sample.outOfRange]

/-- The buffer is full with this sample exactly when the block is. -/
theorem buffer_full_iff (h : Tuned netns lowerLimit upperLimit bufferLength s count) :
    (s.maps.bufferMap netns).getD 0 + 1 = bufferLength ↔
      (block lowerLimit upperLimit s.history).length + 1 = bufferLength.toNat := by
  have hShort := h.short
  have hLt := bufferLength.toNat_lt
  rw [← UInt32.toNat_inj, UInt32.toNat_add, h.buffered, Nat.mod_eq_of_lt]
  · rfl
  · show (block lowerLimit upperLimit s.history).length + 1 < 2 ^ 32
    omega

/-- A new sample out of range is on the side of the block it continues. -/
theorem same_side (hGap : lowerLimit.toNat + 1 < upperLimit.toNat)
    (h : Tuned netns lowerLimit upperLimit bufferLength s count)
    (hBound : established s.history + (if state = tcpEstablished then 1 else 0) < 2 ^ 32)
    (hOut : (tally state count).1 ≤ lowerLimit ∨ upperLimit ≤ (tally state count).1) :
    (Message.lower.names lowerLimit upperLimit (block lowerLimit upperLimit s.history) ∧
      (tally state count).1 ≤ lowerLimit) ∨
    (Message.upper.names lowerLimit upperLimit (block lowerLimit upperLimit s.history) ∧
      upperLimit ≤ (tally state count).1) := by
  have hBounded := h.bounded
  have hCount : count.toNat + 1 < 2 ^ 32 ∨ state ≠ tcpEstablished := by
    by_cases hState : state = tcpEstablished
    · rw [if_pos hState] at hBound
      exact Or.inl (by omega)
    · exact Or.inr hState
  have hMove := toNat_tally hCount
  by_cases hEmpty : block lowerLimit upperLimit s.history = []
  · rw [hEmpty]
    rcases hOut with hLow | hHigh
    · exact Or.inl ⟨fun _ hMem => absurd hMem List.not_mem_nil, hLow⟩
    · exact Or.inr ⟨fun _ hMem => absurd hMem List.not_mem_nil, hHigh⟩
  · rw [UInt32.le_iff_toNat_le, UInt32.le_iff_toNat_le] at hOut
    rcases h.sided hEmpty with ⟨hNames, hLow⟩ | ⟨hNames, hHigh⟩
    · rw [UInt32.le_iff_toNat_le] at hLow
      refine Or.inl ⟨hNames, UInt32.le_iff_toNat_le.mpr ?_⟩
      split at hMove <;> omega
    · rw [UInt32.le_iff_toNat_le] at hHigh
      refine Or.inr ⟨hNames, UInt32.le_iff_toNat_le.mpr ?_⟩
      split at hMove <;> omega

/-- What one call of the kprobe does, in terms of the samples before it. -/
inductive CallCase (netns lowerLimit upperLimit bufferLength : UInt32) (s : Watched) (counted : Maps)
    (value : UInt32) :
    Maps × Option Data → Prop where
  | unarmed (flag : s.maps.scalingMap netns = some 1) : CallCase netns lowerLimit upperLimit bufferLength s
      counted value (counted, none)
  | inRange (flag : s.maps.scalingMap netns ≠ some 1) (inside : ¬ (value ≤ lowerLimit ∨ upperLimit ≤ value)) :
      CallCase netns lowerLimit upperLimit bufferLength s counted value (counted.putBuffer netns (some 0), none)
  | emits (flag : s.maps.scalingMap netns ≠ some 1) (outside : value ≤ lowerLimit ∨ upperLimit ≤ value)
      (full : (block lowerLimit upperLimit s.history).length + 1 = bufferLength.toNat) :
      CallCase netns lowerLimit upperLimit bufferLength s counted value
        ((counted.putScaling netns (some 1)).putBuffer netns (some 0),
          some ⟨netns, if value ≤ lowerLimit then .lower else .upper⟩)
  | collects {buffer : UInt32} (flag : s.maps.scalingMap netns ≠ some 1)
      (outside : value ≤ lowerLimit ∨ upperLimit ≤ value)
      (more : (block lowerLimit upperLimit s.history).length + 1 ≠ bufferLength.toNat)
      (next : buffer.toNat = (block lowerLimit upperLimit s.history).length + 1) :
      CallCase netns lowerLimit upperLimit bufferLength s counted value
        (counted.putBuffer netns (some buffer), none)

theorem callCase (hLength : 1 ≤ bufferLength.toNat) (h : Tuned netns lowerLimit upperLimit bufferLength s count) :
    CallCase netns lowerLimit upperLimit bufferLength s
      (s.maps.putConnCount netns (some (tally state count).1)) (tally state count).1
      (kprobeTcpRecvmsg s.maps netns (some state)) := by
  rw [kprobe_eq h]
  by_cases hFlag : s.maps.scalingMap netns = some 1
  · rw [if_pos hFlag]
    exact .unarmed hFlag
  · rw [if_neg hFlag]
    by_cases hOut : (tally state count).1 ≤ lowerLimit ∨ upperLimit ≤ (tally state count).1
    · by_cases hFull : ((s.maps.putConnCount netns (some (tally state count).1)).bufferMap netns).getD 0 + 1 =
          bufferLength
      · rw [bufferSample_emits hOut hFull]
        exact .emits hFlag hOut ((buffer_full_iff h).mp hFull)
      · rw [bufferSample_collects hOut hFull]
        refine .collects hFlag hOut (fun hSame => hFull ((buffer_full_iff h).mpr hSame)) ?_
        have hShort := h.short
        have hLt := bufferLength.toNat_lt
        rw [Maps.putConnCount_bufferMap, UInt32.toNat_add, h.buffered, Nat.mod_eq_of_lt]
        · rfl
        · show (block lowerLimit upperLimit s.history).length + 1 < 2 ^ 32
          omega
    · rw [bufferSample_inRange hLength hOut]
      exact .inRange hFlag hOut

theorem armed_sampleOf : (sampleOf maps netns state).armed = true ↔ maps.scalingMap netns ≠ some 1 := by
  simp [sampleOf]

/-- A call emits an event exactly when its sample fills the block, and the event names the
side of the whole block. -/
theorem Tuned.emission (hGap : lowerLimit.toNat + 1 < upperLimit.toNat) (hLength : 1 ≤ bufferLength.toNat)
    (h : Tuned netns lowerLimit upperLimit bufferLength s count)
    (hBound : established s.history + (if state = tcpEstablished then 1 else 0) < 2 ^ 32) :
    ((sampleOf s.maps netns state).event.isSome = true ↔
      (sampleOf s.maps netns state).armed = true ∧
        (sampleOf s.maps netns state).outOfRange lowerLimit upperLimit = true ∧
          (block lowerLimit upperLimit s.history).length + 1 = bufferLength.toNat) ∧
    ∀ data, (sampleOf s.maps netns state).event = some data →
      data.message.names lowerLimit upperLimit
        (sampleOf s.maps netns state :: block lowerLimit upperLimit s.history) := by
  have hCount : (sampleOf s.maps netns state).count = (tally state count).1 := count_sampleOf h
  rw [armed_sampleOf, outOfRange_iff, hCount]
  have hCase := @callCase netns lowerLimit upperLimit bufferLength count s state hLength h
  have hEvent : (sampleOf s.maps netns state).event = (kprobeTcpRecvmsg s.maps netns (some state)).2 := rfl
  rw [hEvent]
  generalize kprobeTcpRecvmsg s.maps netns (some state) = result at hCase
  cases hCase with
  | unarmed flag => exact ⟨iff_of_false nofun fun hAll => hAll.1 flag, nofun⟩
  | inRange flag inside => exact ⟨iff_of_false nofun fun hAll => inside hAll.2.1, nofun⟩
  | collects flag outside more next => exact ⟨iff_of_false nofun fun hAll => more hAll.2.2, nofun⟩
  | emits flag outside full =>
      refine ⟨iff_of_true rfl ⟨flag, outside, full⟩, fun data hData => ?_⟩
      cases hData
      rcases same_side hGap h hBound outside with ⟨hNames, hLow⟩ | ⟨hNames, hHigh⟩
      · rw [if_pos hLow]
        intro sample hSample
        rcases List.mem_cons.mp hSample with rfl | hOld
        · rwa [hCount]
        · exact hNames sample hOld
      · have hNotLow : ¬ (tally state count).1 ≤ lowerLimit := by
          rw [UInt32.le_iff_toNat_le] at hHigh ⊢
          omega
        rw [if_neg hNotLow]
        intro sample hSample
        rcases List.mem_cons.mp hSample with rfl | hOld
        · rwa [hCount]
        · exact hNames sample hOld

theorem established_cons {history : List Sample} : established (sampleOf maps netns state :: history) =
    established history + if state = tcpEstablished then 1 else 0 := by
  rw [established, List.countP_cons]
  by_cases hState : state = tcpEstablished <;> simp [sampleOf, hState, established]

theorem Tuned.call (hGap : lowerLimit.toNat + 1 < upperLimit.toNat) (hLength : 1 ≤ bufferLength.toNat)
    (h : Tuned netns lowerLimit upperLimit bufferLength s count)
    (hBound : established s.history + (if state = tcpEstablished then 1 else 0) < 2 ^ 32) :
    Tuned netns lowerLimit upperLimit bufferLength
      ⟨(kprobeTcpRecvmsg s.maps netns (some state)).1, sampleOf s.maps netns state :: s.history⟩
      (tally state count).1 := by
  have hCount : (sampleOf s.maps netns state).count = (tally state count).1 := count_sampleOf h
  have hBounded : (tally state count).1.toNat ≤ established (sampleOf s.maps netns state :: s.history) := by
    have hBefore := h.bounded
    have hSmall : count.toNat + 1 < 2 ^ 32 ∨ state ≠ tcpEstablished := by
      by_cases hState : state = tcpEstablished
      · rw [if_pos hState] at hBound
        exact Or.inl (by omega)
      · exact Or.inr hState
    rw [toNat_tally hSmall, established_cons]
    split <;> omega
  have hCase := @callCase netns lowerLimit upperLimit bufferLength count s state hLength h
  have hArmed := @armed_sampleOf netns s.maps state
  have hOut := @outOfRange_iff lowerLimit upperLimit (sampleOf s.maps netns state)
  have hEvent : (sampleOf s.maps netns state).event = (kprobeTcpRecvmsg s.maps netns (some state)).2 := rfl
  have hSide := same_side hGap h hBound
  rw [hCount] at hOut
  generalize sampleOf s.maps netns state = sample at *
  generalize kprobeTcpRecvmsg s.maps netns (some state) = result at *
  cases hCase with
  | unarmed flag =>
      have hUnarmed : sample.armed = false := Bool.eq_false_iff.mpr fun hTrue => hArmed.mp hTrue flag
      have hKeeps : sample.resets lowerLimit upperLimit = false := by
        rw [Sample.resets, hUnarmed, hEvent]
        rfl
      have hBlock : block lowerLimit upperLimit (sample :: s.history) = [] := by
        rw [block_cons_of_unarmed hKeeps hUnarmed, h.disarmed flag]
      have hBuffered := h.buffered
      rw [h.disarmed flag] at hBuffered
      exact tuned_of_empty hLength h.lower h.upper h.length h.valid (by simp) hBounded hBuffered hBlock
  | inRange flag inside =>
      have hResets : sample.resets lowerLimit upperLimit = true := by
        have hInside : sample.outOfRange lowerLimit upperLimit = false :=
          Bool.eq_false_iff.mpr fun hTrue => inside (hOut.mp hTrue)
        rw [Sample.resets, hArmed.mpr flag, hInside]
        rfl
      have hBlock : block lowerLimit upperLimit (sample :: s.history) = [] := block_cons_of_resets hResets
      exact tuned_of_empty hLength h.lower h.upper h.length h.valid (by simp) hBounded (by simp) hBlock
  | emits flag outside full =>
      have hResets : sample.resets lowerLimit upperLimit = true := by
        rw [Sample.resets, hEvent]
        exact Bool.or_true _
      have hBlock : block lowerLimit upperLimit (sample :: s.history) = [] := block_cons_of_resets hResets
      exact tuned_of_empty hLength h.lower h.upper h.length h.valid (by simp) hBounded (by simp) hBlock
  | collects flag outside more next =>
      have hOutside := hOut.mpr outside
      have hKeeps : sample.resets lowerLimit upperLimit = false := by
        rw [Sample.resets, hOutside, hEvent, hArmed.mpr flag]
        rfl
      have hBlock : block lowerLimit upperLimit (sample :: s.history) =
          sample :: block lowerLimit upperLimit s.history :=
        block_cons_of_counts hKeeps (hArmed.mpr flag) hOutside
      have hShort := h.short
      refine ⟨h.lower, h.upper, h.length, h.valid, by simp, hBounded, ?_, ?_, fun hFlag => absurd hFlag flag,
        fun _ => ?_⟩
      · simp [hBlock, next]
      · rw [hBlock, List.length_cons]
        omega
      · rw [hBlock]
        rcases hSide outside with ⟨hNames, hLow⟩ | ⟨hNames, hHigh⟩
        · refine Or.inl ⟨fun other hOther => ?_, hLow⟩
          rcases List.mem_cons.mp hOther with rfl | hOld
          · rwa [hCount]
          · exact hNames other hOld
        · refine Or.inr ⟨fun other hOther => ?_, hHigh⟩
          rcases List.mem_cons.mp hOther with rfl | hOld
          · rwa [hCount]
          · exact hNames other hOld

theorem Tuned.rearm (h : Tuned netns lowerLimit upperLimit bufferLength s count) :
    Tuned netns lowerLimit upperLimit bufferLength
      { s with maps := addNamespaceToScalingMap s.maps netns } count :=
  { h with disarmed := fun hFlag => by simp [addNamespaceToScalingMap] at hFlag }

theorem Tuned.start (hLength : 1 ≤ bufferLength.toNat)
    (h : Configured maps netns lowerLimit upperLimit bufferLength) :
    Tuned netns lowerLimit upperLimit bufferLength ⟨addNamespaceMaps maps netns, []⟩ 0 where
  lower := h.lower
  upper := h.upper
  length := h.length
  valid := by simp [addNamespaceMaps]
  counted := by simp [addNamespaceMaps]
  bounded := Nat.zero_le _
  buffered := by simp [addNamespaceMaps, h.noBuffer, block]
  short := hLength
  disarmed _ := rfl
  sided hNe := absurd rfl hNe

/-- The samples stay tuned as long as the calls in `TCP_ESTABLISHED` fit a `u32`. -/
theorem tuned_of_run (hGap : lowerLimit.toNat + 1 < upperLimit.toNat) (hLength : 1 ≤ bufferLength.toNat)
    (h : Configured maps netns lowerLimit upperLimit bufferLength) {actions : List Action}
    (hRun : run (watch netns) ⟨addNamespaceMaps maps netns, []⟩ actions = some s)
    (hBound : established s.history < 2 ^ 32) :
    ∃ count, Tuned netns lowerLimit upperLimit bufferLength s count := by
  let inv (s : Watched) : Prop := established s.history < 2 ^ 32 →
    ∃ count, Tuned netns lowerLimit upperLimit bufferLength s count
  have keep (s : Watched) (action : Action) (t : Watched) (hInv : inv s) (_ : True)
      (hStep : watch netns s action = some t) : inv t := by
    intro hSmall
    cases action with
    | rearm =>
        cases hStep
        obtain ⟨count, hTuned⟩ := hInv hSmall
        exact ⟨count, hTuned.rearm⟩
    | call state =>
        cases hStep
        rw [established_cons] at hSmall
        obtain ⟨count, hTuned⟩ := hInv (by omega)
        exact ⟨_, hTuned.call hGap hLength hSmall⟩
  exact invariant_run keep (fun _ => ⟨0, Tuned.start hLength h⟩) (meets_of_forall (fun _ _ => trivial) _ _) hRun
    hBound

/-- After any calls and re-arms since the registration of the namespace: the next call
emits an event exactly when it is armed, out of range and the `bufferLength`-th of its
block, and then the message names the side of every sample of the block. -/
theorem emits_iff (hGap : lowerLimit.toNat + 1 < upperLimit.toNat) (hLength : 1 ≤ bufferLength.toNat)
    (hConfigured : Configured maps netns lowerLimit upperLimit bufferLength) {actions : List Action}
    (hRun : run (watch netns) ⟨addNamespaceMaps maps netns, []⟩ actions = some s)
    (hBound : established (sampleOf s.maps netns state :: s.history) < 2 ^ 32) :
    ((sampleOf s.maps netns state).event.isSome = true ↔
      (sampleOf s.maps netns state).armed = true ∧
        (sampleOf s.maps netns state).outOfRange lowerLimit upperLimit = true ∧
          (block lowerLimit upperLimit s.history).length + 1 = bufferLength.toNat) ∧
    ∀ data, (sampleOf s.maps netns state).event = some data →
      data.message.names lowerLimit upperLimit
        (sampleOf s.maps netns state :: block lowerLimit upperLimit s.history) := by
  rw [established_cons] at hBound
  obtain ⟨count, hTuned⟩ := tuned_of_run hGap hLength hConfigured hRun (by omega)
  exact hTuned.emission hGap hLength hBound

/-- Limits 1 and 4, blocks of 2 samples. -/
def smallLimits : Maps where
  constantsMap := fun key =>
    if key = 0 then some 1 else if key = 1 then some 4 else if key = 2 then some 2 else none

theorem emits_small : ∃ s, run (watch 5) ⟨addNamespaceMaps smallLimits 5, []⟩ [.call 1, .rearm] = some s ∧
    (sampleOf s.maps 5 8).event = some ⟨5, .lower⟩ ∧
      Message.lower.names 1 4 (sampleOf s.maps 5 8 :: block 1 4 s.history) := by
  refine ⟨_, rfl, by decide, ?_⟩
  have hConfigured : Configured smallLimits 5 1 4 2 := ⟨rfl, rfl, rfl, rfl⟩
  exact (emits_iff (by decide) (by decide) hConfigured
    (show run (watch 5) ⟨addNamespaceMaps smallLimits 5, []⟩ [.call 1, .rearm] = some _ from rfl)
    (by decide)).2 ⟨5, .lower⟩ (by decide)

end Invariant

end Kernel
