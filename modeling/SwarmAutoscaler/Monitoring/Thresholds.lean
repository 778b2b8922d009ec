import Mathlib.Algebra.Order.Ring.Cast
import Mathlib.Algebra.Order.Ring.Rat
import SwarmAutoscaler.Kernel.Debounce
import SwarmAutoscaler.Monitoring.Resources

/-! What the thresholds of the configuration come to mean, from `main` to the comparisons of
the two cgroup Monitors and of the kprobe. A threshold of -1 is one that is not set. -/
namespace Resources

open Cluster (SwarmNodeInfo getManagerNode)
open Kernel (Maps Message Watched countCall sampleOf watch)
open Process

/-- The thresholds of the configuration, with the defaults of `loadConfig`. -/
structure Config where
  lowerCPU : Rat := -1
  upperCPU : Rat := -1
  lowerMB : Int64 := -1
  upperMB : Int64 := -1
  lowerGB : Int64 := -1
  upperGB : Int64 := -1
  lowerConcReq : Int64 := -1
  upperConcReq : Int64 := -1
  reqBufferLength : Int64 := 5

/-- `main` exits when more than one resource is enabled, and has none to monitor when none is. -/
def selectResource (config : Config) : Option Resource :=
  let memory := 0 ≤ config.lowerMB ∨ 0 ≤ config.upperMB ∨ 0 ≤ config.lowerGB ∨ 0 ≤ config.upperGB
  let cpu := 0 ≤ config.lowerCPU ∨ 0 ≤ config.upperCPU
  let concReq := 0 ≤ config.lowerConcReq ∨ 0 ≤ config.upperConcReq
  if (cpu ∧ memory) ∨ (memory ∧ concReq) ∨ (cpu ∧ concReq) then none
  else if cpu then some (.cpu ⟨config.lowerCPU, config.upperCPU⟩)
  else if memory then
    some (.memory
      ⟨if 0 < config.lowerGB then config.lowerGB * 1024 else config.lowerMB,
        if 0 < config.upperGB then config.upperGB * 1024 else config.upperMB⟩)
  else if concReq then some (.concReq ⟨config.lowerConcReq, config.upperConcReq, config.reqBufferLength⟩)
  else none

/-- The conversion `uint32(n)` of an `int64`. -/
def uint32 (n : Int64) : UInt32 := n.toUInt64.toUInt32

/-- `InitBPFListener`: the three constants for the kprobe. -/
def initBPFListener (resource : ConcReqResource) (maps : Maps) : Maps :=
  { maps with
    constantsMap := fun key =>
      if key = 0 then some (uint32 resource.lowerLimit)
      else if key = 1 then some (uint32 resource.upperLimit)
      else if key = 2 then some (uint32 resource.bufferLength)
      else maps.constantsMap key }

section Meaning

/-- The limits that are set. -/
structure Limits where
  lower? : Option Rat
  upper? : Option Rat

/-- The CPU threshold that a value of the configuration stands for; -1 is the default and
stands for none. -/
def threshold? (value : Rat) : Option Rat := if value = -1 then none else some value

/-- A limit in MB, from a value in GB if one is given. -/
def memoryThreshold? (gb mb : Int64) : Option Rat :=
  if 0 ≤ gb.toInt then some (1024 * gb.toInt) else threshold? mb.toInt

/-- The limits that a configuration gives for the CPU usage. -/
def Config.cpuLimits (config : Config) : Limits := ⟨threshold? config.lowerCPU, threshold? config.upperCPU⟩

/-- The limits that a configuration gives for the memory usage, each in GB or in MB. -/
def Config.memoryLimits (config : Config) : Limits :=
  ⟨memoryThreshold? config.lowerGB config.lowerMB, memoryThreshold? config.upperGB config.upperMB⟩

/-- The measurement lies outside of the limits, in that direction. -/
def Limits.Justifies (limits : Limits) (measured : Rat) (direction : String) : Prop :=
  (direction = "over" ∧ ∃ upper ∈ limits.upper?, upper < measured) ∨
    (direction = "under" ∧ ∃ lower ∈ limits.lower?, measured < lower)

variable (config : Config) (limits : Limits) (node : SwarmNodeInfo) (containerID : String)
    (collectionPeriod : Int64)

/-- The loop of a Monitor for CPU or memory, with the answers in each turn. -/
def monitorStep (resource : Resource) (progress : Progress) (answers : (op : Op) → op.Answer) : Option Progress :=
  if progress = .returned then none
  else some ((resource.turn node containerID collectionPeriod progress).replay answers).2

/-- The usage that a turn has read. -/
def read? : Ticked → Except String Int64 → Option Int64
  | .tick, .ok usage => some usage
  | _, _ => none

/-- What a turn has measured. -/
def measured? (resource : Resource) (progress : Progress) (answers : (op : Op) → op.Answer) : Option Rat :=
  match resource, progress with
  | .cpu _, .ticking lastUsageUsec =>
      (read? (answers .selectTick) (answers (.readCPUUsage containerID))).map fun currentUsageUsec =>
        cpuUtilization (currentUsageUsec - lastUsageUsec) collectionPeriod
  | .memory _, .polling =>
      (read? (answers .selectTick) (answers (.readMemoryUsage containerID))).map fun memUsage =>
        (memUsage.toInt : Rat)
  | _, _ => none

/-- Every direction that the turn asks for is justified by what it has measured. -/
def Justified (resource : Resource) (progress : Progress) (answers : (op : Op) → op.Answer) : Prop :=
  ∀ op ∈ ((resource.turn node containerID collectionPeriod progress).replay answers).1,
    ∀ direction ∈ op.direction?, ∃ measured ∈ measured? containerID collectionPeriod resource progress answers,
      limits.Justifies measured direction

/-- A limit of the memory Monitor is 1024 times the value in GB if that is given, and the
value in MB otherwise. -/
def Effective (limit gb mb : Int64) : Prop := limit.toInt = if 0 ≤ gb.toInt then 1024 * gb.toInt else mb.toInt

/-- The value that a call of the kprobe compares with the limits. -/
def compared? (maps : Maps) (netns : UInt32) (state : UInt8) : Option UInt32 :=
  let counted := countCall maps netns state
  if (maps.validNetnsMap netns).isSome = true ∧ counted.1.scalingMap netns ≠ some 1 then some counted.2 else none

/-- The comparisons with the constants come out as those with the limits that are set. -/
def Agrees (resource : ConcReqResource) (value : UInt32) : Prop :=
  (value ≤ uint32 resource.lowerLimit ↔ resource.lowerLimit ≠ -1 ∧
    (value.toNat : Int) ≤ resource.lowerLimit.toInt) ∧
    (uint32 resource.upperLimit ≤ value ↔ resource.upperLimit ≠ -1 ∧ resource.upperLimit.toInt ≤ value.toNat)

/-- The value is on or beyond a limit that is set, on the side of the direction. -/
def Sides (resource : ConcReqResource) (value : UInt32) (direction : String) : Prop :=
  (direction = "under" ∧ resource.lowerLimit ≠ -1 ∧ (value.toNat : Int) ≤ resource.lowerLimit.toInt) ∨
    (direction = "over" ∧ resource.upperLimit ≠ -1 ∧ resource.upperLimit.toInt ≤ value.toNat)

/-- However the turn of the Monitor goes that receives the message, every direction that it
asks for is justified by the value. -/
def Heeds (resource : ConcReqResource) (netns value : UInt32) (message : Message) : Prop :=
  ∀ (serviceID : String) (answers : (op : Op) → op.Answer), answers .selectSignal = Signalled.signal message →
    ∀ op ∈ (((Resource.concReq resource).turn node containerID collectionPeriod
        (.watching serviceID netns)).replay answers).1,
      ∀ direction ∈ op.direction?, Sides resource value direction

/-- In a call of the kprobe the comparisons agree, and the Monitor that gets its event asks
for nothing that the compared value does not justify. -/
def Compares (resource : ConcReqResource) (netns : UInt32) (s : Watched) : Kernel.Action → Prop
  | .call state =>
      (∀ value ∈ compared? s.maps netns state, Agrees resource value) ∧
        ∀ data ∈ (sampleOf s.maps netns state).event, ∃ value ∈ compared? s.maps netns state,
          Heeds node containerID collectionPeriod resource netns value data.message
  | .rearm => True

/-- A sequence of measurements: for CPU and memory the answers in the turns of the Monitor,
for concurrent requests the maps and the calls of the kprobe in one namespace. -/
structure Series where
  turns : List ((op : Op) → op.Answer) := []
  netns : UInt32 := 0
  maps : Maps := {}
  actions : List Kernel.Action := []

/-- The configuration selects a resource, and its thresholds mean what they say. -/
def Faithful (series : Series) : Prop :=
  match selectResource config with
  | some (.cpu cpu) =>
      Meets (monitorStep node containerID collectionPeriod (.cpu cpu))
        (Justified config.cpuLimits node containerID collectionPeriod (.cpu cpu)) .starting series.turns
  | some (.memory mem) =>
      (Effective mem.lowerLimit config.lowerGB config.lowerMB ∧
        Effective mem.upperLimit config.upperGB config.upperMB) ∧
        Meets (monitorStep node containerID collectionPeriod (.memory mem))
          (Justified config.memoryLimits node containerID collectionPeriod (.memory mem)) .starting series.turns
  | some (.concReq resource) =>
      Meets (watch series.netns) (Compares node containerID collectionPeriod resource series.netns)
        ⟨initBPFListener resource series.maps, []⟩ series.actions
  | none => True

/-- The Monitor can pass a direction on: it runs on a manager, or it finds one and the service. -/
def Asks (answers : (op : Op) → op.Answer) : Prop :=
  node.autoscalerManager = true ∨ (getManagerNode node.otherNodes).isOk = true ∧
    (answers (.findServiceIDFromContainer containerID)).isOk = true

instance (answers : (op : Op) → op.Answer) : Decidable (Asks node containerID answers) :=
  inferInstanceAs (Decidable (_ = true ∨ _ = true ∧ Except.isOk _ = true))

/-- A turn that can ask for scaling measures -1 or less without an upper threshold, and -1
or more without a lower one. -/
def Spares (resource : Resource) (progress : Progress) (answers : (op : Op) → op.Answer) : Prop :=
  Asks node containerID answers → ∀ measured ∈ measured? containerID collectionPeriod resource progress answers,
    (limits.upper? = none → measured ≤ -1) ∧ (limits.lower? = none → -1 ≤ measured)

/-- With 0 GB the value in MB is 0 too, and the value in GB fits when it is counted in MB. -/
def Converts (gb mb : Int64) : Prop := (gb.toInt = 0 → mb.toInt = 0) ∧ (0 < gb.toInt → gb.toInt < 2 ^ 53)

/-- The value is above the constant of a negative lower limit and not above that of one
from 2^32 on, below the constant of an upper limit that is not set or from 2^32 on, and not
below that of any other negative upper limit. -/
def Fits (resource : ConcReqResource) (value : UInt32) : Prop :=
  ((resource.lowerLimit.toInt < 0 → uint32 resource.lowerLimit < value) ∧
    (2 ^ 32 ≤ resource.lowerLimit.toInt → value ≤ uint32 resource.lowerLimit)) ∧
  (resource.upperLimit.toInt = -1 ∨ 2 ^ 32 ≤ resource.upperLimit.toInt → value < uint32 resource.upperLimit) ∧
    (resource.upperLimit.toInt < -1 → uint32 resource.upperLimit ≤ value)

/-- The buffer has a length, or the value does not get that far. -/
def Buffers (resource : ConcReqResource) (value : UInt32) : Prop :=
  uint32 resource.bufferLength ≠ 0 ∨ value ≤ uint32 resource.lowerLimit ∨ uint32 resource.upperLimit ≤ value

/-- A Monitor for concurrent requests can pass a direction on. -/
def Passes : Prop := node.autoscalerManager = true ∨ (getManagerNode node.otherNodes).isOk = true

instance : Decidable (Passes node) := inferInstanceAs (Decidable (_ = true ∨ Except.isOk _ = true))

/-- The value that the kprobe compares is on the same side of the limits after their
conversion to `uint32`, and where a direction can be passed on, the buffer has a length
unless the value does not get that far. -/
def Stands (resource : ConcReqResource) (netns : UInt32) (s : Watched) : Kernel.Action → Prop
  | .call state =>
      ∀ value ∈ compared? s.maps netns state, Fits resource value ∧ (Passes node → Buffers resource value)
  | .rearm => True

/-- The condition under which the thresholds mean what they say. -/
def Sound (series : Series) : Prop :=
  match selectResource config with
  | some (.cpu cpu) =>
      Meets (monitorStep node containerID collectionPeriod (.cpu cpu))
        (Spares config.cpuLimits node containerID collectionPeriod (.cpu cpu)) .starting series.turns
  | some (.memory mem) =>
      (Converts config.lowerGB config.lowerMB ∧ Converts config.upperGB config.upperMB) ∧
        Meets (monitorStep node containerID collectionPeriod (.memory mem))
          (Spares config.memoryLimits node containerID collectionPeriod (.memory mem)) .starting series.turns
  | some (.concReq resource) =>
      Meets (watch series.netns) (Stands node resource series.netns) ⟨initBPFListener resource series.maps, []⟩
        series.actions
  | none => True

end Meaning

/-- The claim for every configuration, node, container and sequence of measurements. -/
def AlwaysFaithful : Prop :=
  ∀ (config : Config) (node : SwarmNodeInfo) (containerID : String) (collectionPeriod : Int64) (series : Series),
    Faithful config node containerID collectionPeriod series

/-- Only a lower CPU threshold is set, and an idle container is scaled up. -/
theorem not_alwaysFaithful : ¬ AlwaysFaithful := by
  intro h
  have hFaithful : Meets (monitorStep ⟨true, [], 5⟩ "web.1" 1000000000 (.cpu ⟨10, -1⟩))
      (Justified ⟨some 10, none⟩ ⟨true, [], 5⟩ "web.1" 1000000000 (.cpu ⟨10, -1⟩)) .starting
        [smoothly, smoothly] :=
    h { lowerCPU := 10 } ⟨true, [], 5⟩ "web.1" 1000000000 ⟨[smoothly, smoothly], 0, {}, []⟩
  have hJustified := (hFaithful.2 _ rfl).1 (.scaleService "web.1" "over") (by decide +kernel) "over" rfl
  obtain ⟨measured, _, ⟨_, limit, hLimit, _⟩ | ⟨hWrong, _⟩⟩ := hJustified
  · cases hLimit
  · exact absurd hWrong (by decide)

section Agreement

variable {resource : ConcReqResource} {value : UInt32} {n : Int64}

theorem toNat_uint32 : ((uint32 n).toNat : Int) = n.toInt % 2 ^ 32 := by
  have hBits : n.toInt = if 2 * n.toBitVec.toNat <
      2 ^ 64 then (n.toBitVec.toNat : Int) else n.toBitVec.toNat - 2 ^ 64 :=
    BitVec.toInt_eq_toNat_cond n.toBitVec
  have hLow : (uint32 n).toNat = n.toBitVec.toNat % 2 ^ 32 := rfl
  rw [hLow, hBits]
  split <;> omega

theorem eq_neg_one_iff : n = -1 ↔ n.toInt = -1 := by
  rw [← Int64.toInt_inj]
  rfl

theorem agrees_iff_fits : Agrees resource value ↔ Fits resource value := by
  have hLower := @toNat_uint32 resource.lowerLimit
  have hUpper := @toNat_uint32 resource.upperLimit
  have hValue := UInt32.toNat_lt value
  rw [Agrees, Fits, Ne, Ne, eq_neg_one_iff, eq_neg_one_iff]
  simp only [UInt32.le_iff_toNat_le, UInt32.lt_iff_toNat_lt]
  generalize (uint32 resource.lowerLimit).toNat = lower at hLower ⊢
  generalize (uint32 resource.upperLimit).toNat = upper at hUpper ⊢
  have hBelow := Int64.le_toInt resource.lowerLimit
  constructor
  · rintro ⟨hLow, hHigh⟩
    refine ⟨⟨?_, ?_⟩, ?_, ?_⟩ <;> omega
  · rintro ⟨⟨hNegative, hLarge⟩, hUnset, hOther⟩
    constructor <;> omega

end Agreement

section Asking

variable {node : SwarmNodeInfo} {containerID serviceID direction asked : String} {netns : UInt32}
  {message : Message} {answers : (op : Op) → op.Answer}

/-- The operations of a turn ask for a direction. -/
def AskedFor (ops : List Op) (direction : String) : Prop := ∃ op ∈ ops, direction ∈ op.direction?

theorem askedFor_cons {op : Op} {ops : List Op} (h : op.direction? = none) :
    AskedFor (op :: ops) direction ↔ AskedFor ops direction := by
  rw [AskedFor, AskedFor, List.exists_mem_cons_iff, h]
  exact or_iff_right nofun

theorem askedFor_last {op : Op} (h : op.direction? = some direction) :
    AskedFor [op] asked ↔ asked = direction := by
  constructor
  · rintro ⟨other, hMem, hAsked⟩
    cases List.mem_singleton.mp hMem
    exact Option.some.inj (hAsked.symm.trans h)
  · rintro rfl
    exact ⟨op, List.mem_singleton_self op, h⟩

theorem not_askedFor_nil : ¬ AskedFor [] direction := by
  rintro ⟨op, hMem, _⟩
  cases hMem

/-- One operation asks for a direction, and those after it do not. -/
theorem askedFor_first {op : Op} {ops : List Op} (h : op.direction? = some direction)
    (hRest : ∀ other ∈ ops, other.direction? = none) : AskedFor (op :: ops) asked ↔ asked = direction := by
  rw [AskedFor, List.exists_mem_cons_iff, h]
  refine (or_iff_left ?_).trans (Option.some_inj.trans eq_comm)
  rintro ⟨other, hMem, hAsked⟩
  rw [hRest other hMem] at hAsked
  cases hAsked

/-- A Monitor for concurrent requests asks for the direction of its message. -/
theorem askedFor_message (hSignal : answers .selectSignal = Signalled.signal message) :
    AskedFor ((ConcReqResource.turn node containerID serviceID netns).replay answers).1 asked ↔
      Passes node ∧ asked = directionOf message := by
  have hRearm : ∀ other ∈ [Op.sleep, .addNamespaceToScalingMap netns], other.direction? = none := by
    intro other hMem
    rcases List.mem_pair.mp hMem with rfl | rfl <;> rfl
  rw [ConcReqResource.turn, Program.replay_perform, hSignal, askedFor_cons rfl, Passes]
  dsimp only
  by_cases hManager : node.autoscalerManager = true
  · rw [if_pos hManager, and_iff_right (Or.inl hManager)]
    exact askedFor_first rfl hRearm
  · rw [if_neg hManager, or_iff_right hManager]
    cases hFound : getManagerNode node.otherNodes with
    | error err => exact iff_of_false not_askedFor_nil fun h => nomatch h.1
    | ok managerNode => exact (askedFor_first rfl hRearm).trans (and_iff_right rfl).symm

/-- Answers with which the message is received. -/
def signalling (message : Message) : (op : Op) → op.Answer
  | .selectSignal => Signalled.signal message
  | op => smoothly op

theorem heeds_iff {collectionPeriod : Int64} {resource : ConcReqResource} {value : UInt32} :
    Heeds node containerID collectionPeriod resource netns value message ↔
      (Passes node → Sides resource value (directionOf message)) := by
  constructor
  · intro h hPasses
    obtain ⟨op, hMem, hAsked⟩ := (@askedFor_message node containerID "" (directionOf message) netns message
      (signalling message) rfl).mpr ⟨hPasses, rfl⟩
    exact h "" (signalling message) rfl op hMem _ hAsked
  · intro h serviceID answers hSignal op hMem asked hAsked
    obtain ⟨hPasses, rfl⟩ := (askedFor_message hSignal).mp ⟨op, hMem, hAsked⟩
    exact h hPasses

end Asking

section Calls

variable {resource : ConcReqResource} {netns value : UInt32} {maps : Maps} {s t : Watched} {state : UInt8}
  {action : Kernel.Action}

/-- The constants in the map are those of the resource. -/
structure Constants (resource : ConcReqResource) (maps : Maps) : Prop where
  lower : maps.constantsMap 0 = some (uint32 resource.lowerLimit)
  upper : maps.constantsMap 1 = some (uint32 resource.upperLimit)
  length : maps.constantsMap 2 = some (uint32 resource.bufferLength)

theorem constants_initBPFListener : Constants resource (initBPFListener resource maps) := ⟨rfl, rfl, rfl⟩

theorem Constants.step (h : Constants resource s.maps) (hStep : watch netns s action = some t) :
    Constants resource t.maps := by
  cases action with
  | rearm =>
      cases hStep
      exact ⟨h.lower, h.upper, h.length⟩
  | call state =>
      cases hStep
      have hSame := @Kernel.kprobe_constantsMap s.maps netns (some state)
      exact ⟨(congrFun hSame 0).trans h.lower, (congrFun hSame 1).trans h.upper, (congrFun hSame 2).trans h.length⟩

/-- The event of a call comes from the value that it compares. -/
theorem event_of_compared (h : Constants resource maps) : (sampleOf maps netns state).event =
    (compared? maps netns state).bind fun value =>
      (Kernel.bufferSample (countCall maps netns state).1 netns (uint32 resource.lowerLimit)
        (uint32 resource.upperLimit)
        (uint32 resource.bufferLength) value).2 := by
  have hEvent : (sampleOf maps netns state).event = (Kernel.kprobeTcpRecvmsg maps netns (some state)).2 := rfl
  rw [hEvent, compared?]
  cases hValid : maps.validNetnsMap netns with
  | none =>
      rw [Kernel.kprobe_invalid hValid, if_neg (by simp)]
      rfl
  | some valid =>
      have hTracked : (maps.validNetnsMap netns).isSome = true := by rw [hValid]; rfl
      rw [Kernel.kprobe_of_limits hTracked h.lower h.upper h.length]
      by_cases hFlag : (countCall maps netns state).1.scalingMap netns = some 1
      · rw [if_pos hFlag, if_neg fun hBoth => hBoth.2 hFlag]
        rfl
      · rw [if_neg hFlag, if_pos ⟨rfl, hFlag⟩]
        rfl

/-- The side that an event names. -/
theorem event_of_bufferSample {lower upper length : UInt32} :
    (Kernel.bufferSample maps netns lower upper length value).2 = none ∨
      (Kernel.bufferSample maps netns lower upper length value).2 =
        some ⟨netns, if value ≤ lower then .lower else .upper⟩ := by
  unfold Kernel.bufferSample
  dsimp only
  split <;> split <;> first | exact Or.inl rfl | exact Or.inr rfl

/-- When the comparisons agree, only a buffer without a length takes a value in range for an event. -/
theorem sides_iff_buffers (hAgrees : Agrees resource value) :
    (∀ data ∈ (Kernel.bufferSample maps netns (uint32 resource.lowerLimit) (uint32 resource.upperLimit)
      (uint32 resource.bufferLength) value).2, Sides resource value (directionOf data.message)) ↔
      Buffers resource value := by
  by_cases hOut : value ≤ uint32 resource.lowerLimit ∨ uint32 resource.upperLimit ≤ value
  · refine iff_of_true (fun data hData => ?_) (Or.inr hOut)
    rcases @event_of_bufferSample netns value maps (uint32 resource.lowerLimit) (uint32 resource.upperLimit)
      (uint32 resource.bufferLength) with hNone | hSome
    · rw [hNone] at hData
      cases hData
    · rw [hSome] at hData
      cases hData
      by_cases hLow : value ≤ uint32 resource.lowerLimit
      · rw [if_pos hLow]
        exact Or.inl ⟨rfl, hAgrees.1.mp hLow⟩
      · rw [if_neg hLow]
        exact Or.inr ⟨rfl, hAgrees.2.mp (hOut.resolve_left hLow)⟩
  · rw [Buffers, or_iff_left hOut]
    by_cases hLength : 0 = uint32 resource.bufferLength
    · refine iff_of_false (fun hSides => hOut (Or.inr (hAgrees.2.mpr ?_))) fun hNot => hNot hLength.symm
      have hEvent : (Kernel.bufferSample maps netns (uint32 resource.lowerLimit) (uint32 resource.upperLimit)
          (uint32 resource.bufferLength) value).2 = some ⟨netns, .upper⟩ := by
        simp only [Kernel.bufferSample, if_neg hOut, if_pos hLength, if_neg (not_or.mp hOut).1]
      rcases hSides _ hEvent with ⟨hUnder, _⟩ | ⟨_, hAbove⟩
      · exact absurd hUnder (show "over" ≠ "under" by decide)
      · exact hAbove
    · refine iff_of_true (fun data hData => ?_) fun hZero => hLength hZero.symm
      simp only [Kernel.bufferSample, if_neg hOut, if_neg hLength] at hData
      cases hData

theorem compares_iff_stands {node : SwarmNodeInfo} {containerID : String} {collectionPeriod : Int64}
    (h : Constants resource s.maps) :
    Compares node containerID collectionPeriod resource netns s action ↔ Stands node resource netns s action := by
  cases action with
  | rearm => exact Iff.rfl
  | call state =>
      rw [Compares, Stands, event_of_compared h]
      cases hCompared : compared? s.maps netns state with
      | none => simp
      | some value =>
          simp only [Option.mem_def, Option.some.injEq, forall_eq', exists_eq_left', Option.bind_some, heeds_iff]
          rw [← agrees_iff_fits]
          refine and_congr_right fun hAgrees => ?_
          rw [← @sides_iff_buffers resource netns value _ hAgrees]
          exact ⟨fun hSides hPasses data hData => hSides data hData hPasses,
            fun hSides data hData hPasses => hSides hPasses data hData⟩

end Calls

section Directions

variable {limits : Limits} {lower upper value measured : Rat}

theorem determineScalingDirection_over (h : upper < value) :
    determineScalingDirection value lower upper = "over" := if_pos h

theorem determineScalingDirection_under (hNot : ¬ upper < value) (h : value < lower) :
    determineScalingDirection value lower upper = "under" := by
  rw [determineScalingDirection, if_neg hNot, if_pos h]

/-- What the numbers that the code compares have to do with the measurement and the limits. -/
structure Placed (limits : Limits) (lower upper value measured : Rat) : Prop where
  above : ∀ limit ∈ limits.upper?, upper < value → limit < measured
  below : ∀ limit ∈ limits.lower?, value < lower → measured < limit
  aboveUnset : limits.upper? = none → (upper < value ↔ -1 < measured)
  belowUnset : limits.lower? = none → (value < lower ↔ measured < -1)
  enabled : limits.lower? = none → measured < -1 → ¬ upper < value

theorem justifies_iff (h : Placed limits lower upper value measured) :
    (determineScalingDirection value lower upper ≠ "" →
        limits.Justifies measured (determineScalingDirection value lower upper)) ↔
      (limits.upper? = none → measured ≤ -1) ∧ (limits.lower? = none → -1 ≤ measured) := by
  constructor
  · intro hJustified
    refine ⟨fun hUnset => ?_, fun hUnset => ?_⟩
    · by_contra hAbove
      rw [determineScalingDirection_over ((h.aboveUnset hUnset).mpr (not_le.mp hAbove))] at hJustified
      rcases hJustified (by decide) with ⟨_, limit, hLimit, _⟩ | ⟨hWrong, _⟩
      · rw [hUnset] at hLimit
        cases hLimit
      · exact absurd hWrong (by decide)
    · by_contra hBelow
      have hLess := not_le.mp hBelow
      rw [determineScalingDirection_under (h.enabled hUnset hLess) ((h.belowUnset hUnset).mpr hLess)] at hJustified
      rcases hJustified (by decide) with ⟨hWrong, _⟩ | ⟨_, limit, hLimit, _⟩
      · exact absurd hWrong (by decide)
      · rw [hUnset] at hLimit
        cases hLimit
  · rintro ⟨hUpper, hLower⟩ hSome
    by_cases hOver : upper < value
    · rw [determineScalingDirection_over hOver]
      cases hLimit : limits.upper? with
      | none => exact absurd ((h.aboveUnset hLimit).mp hOver) (not_lt.mpr (hUpper hLimit))
      | some limit => exact Or.inl ⟨rfl, limit, hLimit, h.above limit hLimit hOver⟩
    · by_cases hUnder : value < lower
      · rw [determineScalingDirection_under hOver hUnder]
        cases hLimit : limits.lower? with
        | none => exact absurd ((h.belowUnset hLimit).mp hUnder) (not_lt.mpr (hLower hLimit))
        | some limit => exact Or.inr ⟨rfl, limit, hLimit, h.below limit hLimit hUnder⟩
      · rw [determineScalingDirection, if_neg hOver, if_neg hUnder] at hSome
        exact absurd rfl hSome

end Directions

section Turns

variable {limits : Limits} {node : SwarmNodeInfo} {containerID direction : String} {collectionPeriod : Int64}
  {progress after : Progress} {answers : (op : Op) → op.Answer} {resource : Resource} {measured : Rat}

/-- A direction is asked for if there is one and the Monitor can pass it on. -/
theorem askedFor_act {asked : String} :
    AskedFor ((act node containerID direction after).replay answers).1 asked ↔
      Asks node containerID answers ∧ asked ≠ "" ∧ asked = direction := by
  by_cases hSome : direction = ""
  · subst hSome
    exact iff_of_false (fun ⟨_, hMem, _⟩ => nomatch hMem) fun h => h.2.1 h.2.2
  · have hAsked : (asked ≠ "" ∧ asked = direction) ↔ asked = direction :=
      and_iff_right_of_imp fun hSame => hSame ▸ hSome
    rw [hAsked, act, if_pos hSome, request, Asks]
    by_cases hManager : node.autoscalerManager = true
    · rw [if_pos hManager, Program.replay_perform, Program.replay_done, askedFor_last rfl,
        and_iff_right (Or.inl hManager)]
    · rw [if_neg hManager, or_iff_right hManager]
      cases hFound : getManagerNode node.otherNodes with
      | error err => exact iff_of_false not_askedFor_nil fun h => nomatch h.1.1
      | ok managerNode =>
          dsimp only
          rw [Program.replay_perform, askedFor_cons rfl]
          cases hService : answers (.findServiceIDFromContainer containerID) with
          | error err => exact iff_of_false not_askedFor_nil fun h => nomatch h.1.2
          | ok serviceID =>
              dsimp only
              rw [Program.replay_perform, Program.replay_done, askedFor_last rfl, and_iff_right ⟨rfl, rfl⟩]

theorem justified_iff : Justified limits node containerID collectionPeriod resource progress answers ↔
    ∀ direction, AskedFor ((resource.turn node containerID collectionPeriod progress).replay answers).1 direction →
      ∃ measured ∈ measured? containerID collectionPeriod resource progress answers,
        limits.Justifies measured direction := by
  constructor
  · rintro h direction ⟨op, hMem, hAsked⟩
    exact h op hMem direction hAsked
  · exact fun h op hMem direction hAsked => h direction ⟨op, hMem, hAsked⟩

/-- A turn that measures and then acts. -/
theorem justified_iff_spares_of_measured (after : Progress)
    (hMeasured : measured? containerID collectionPeriod resource progress answers = some measured)
    (hTurn : ∀ asked, AskedFor ((resource.turn node containerID collectionPeriod progress).replay answers).1
      asked ↔
      AskedFor ((act node containerID direction after).replay answers).1 asked)
    (hExact : (direction ≠ "" → limits.Justifies measured direction) ↔
      (limits.upper? = none → measured ≤ -1) ∧ (limits.lower? = none → -1 ≤ measured)) :
    Justified limits node containerID collectionPeriod resource progress answers ↔
      Spares limits node containerID collectionPeriod resource progress answers := by
  rw [justified_iff, Spares, hMeasured]
  simp only [hTurn, askedFor_act, Option.mem_def, Option.some.injEq, exists_eq_left', forall_eq', ← hExact]
  constructor
  · exact fun h hAsks hSome => h direction ⟨hAsks, hSome, rfl⟩
  · rintro h asked ⟨hAsks, hSome, rfl⟩
    exact h hAsks hSome

/-- A turn that measures nothing asks for nothing. -/
theorem justified_iff_spares_of_none
    (hMeasured : measured? containerID collectionPeriod resource progress answers = none)
    (hTurn : ∀ asked, ¬ AskedFor ((resource.turn node containerID collectionPeriod progress).replay answers).1
      asked) :
    Justified limits node containerID collectionPeriod resource progress answers ↔
      Spares limits node containerID collectionPeriod resource progress answers := by
  rw [justified_iff, Spares, hMeasured]
  exact iff_of_true (fun asked hAsked => absurd hAsked (hTurn asked)) (fun _ _ hNone => nomatch hNone)

end Turns

section Configuration

variable {config : Config} {node : SwarmNodeInfo} {containerID : String} {collectionPeriod : Int64}
    {progress : Progress}
  {answers : (op : Op) → op.Answer} {cpu : CPUResource} {mem : MemoryResource} {limit gb mb a b : Int64}
    {value : Rat}

theorem threshold?_eq_none_iff : threshold? value = none ↔ value = -1 := by simp [threshold?]

theorem eq_of_mem_threshold? {other : Rat} (h : other ∈ threshold? value) : other = value := by
  rw [threshold?] at h
  split at h
  · cases h
  · exact (Option.some.inj h).symm

theorem cpu_of_selectResource (h : selectResource config = some (.cpu cpu)) :
    cpu = ⟨config.lowerCPU, config.upperCPU⟩ ∧ (0 ≤ config.lowerCPU ∨ 0 ≤ config.upperCPU) := by
  unfold selectResource at h
  dsimp only at h
  split at h
  · cases h
  · split at h
    · next hEnabled =>
        cases h
        exact ⟨rfl, hEnabled⟩
    · split at h
      · cases h
      · split at h <;> cases h

theorem memory_of_selectResource (h : selectResource config = some (.memory mem)) :
    mem = ⟨if 0 < config.lowerGB then config.lowerGB * 1024 else config.lowerMB,
        if 0 < config.upperGB then config.upperGB * 1024 else config.upperMB⟩ ∧
      (0 ≤ config.lowerMB ∨ 0 ≤ config.upperMB ∨ 0 ≤ config.lowerGB ∨ 0 ≤ config.upperGB) := by
  unfold selectResource at h
  dsimp only at h
  split at h
  · cases h
  · split at h
    · cases h
    · split at h
      · next hEnabled =>
          cases h
          exact ⟨rfl, hEnabled⟩
      · split at h <;> cases h

/-- The CPU Monitor compares the measurement itself. -/
theorem placed_cpu (hEnabled : 0 ≤ config.lowerCPU ∨ 0 ≤ config.upperCPU) :
    Placed config.cpuLimits config.lowerCPU config.upperCPU value value where
  above limit hLimit hOver := by
    rw [eq_of_mem_threshold? hLimit]
    exact hOver
  below limit hLimit hUnder := by
    rw [eq_of_mem_threshold? hLimit]
    exact hUnder
  aboveUnset hUnset := by rw [threshold?_eq_none_iff.mp hUnset]
  belowUnset hUnset := by rw [threshold?_eq_none_iff.mp hUnset]
  enabled hUnset hBelow := by
    have hLower : config.lowerCPU = -1 := threshold?_eq_none_iff.mp hUnset
    have hUpper : 0 ≤ config.upperCPU := hEnabled.resolve_left (by rw [hLower]; decide)
    intro hOver
    exact absurd (lt_of_le_of_lt hUpper (lt_trans hOver hBelow)) (by decide)

theorem toInt_lt_of_float64 (h : float64 a < float64 b) : a.toInt < b.toInt :=
  Binary64.lt_of_ofInt_lt (Int.cast_lt.mp h)

theorem float64_neg_one (h : a.toInt = -1) : float64 a = -1 := by
  rw [float64, h]
  rfl

theorem neg_one_lt_float64_iff : -1 < float64 a ↔ -1 < a.toInt := by
  constructor
  · intro h
    rw [← float64_neg_one (a := -1) rfl] at h
    exact toInt_lt_of_float64 h
  · intro h
    have hZero : (0 : Int) ≤ Binary64.ofInt a.toInt := Binary64.ofInt_mono h
    exact lt_of_lt_of_le (by decide) (Int.cast_nonneg hZero)

theorem float64_lt_neg_one_iff : float64 a < -1 ↔ a.toInt < -1 := by
  constructor
  · intro h
    rw [← float64_neg_one (a := -1) rfl] at h
    exact toInt_lt_of_float64 h
  · intro h
    have hTwo : Binary64.ofInt a.toInt ≤ -2 := Binary64.ofInt_mono (show a.toInt ≤ -2 by omega)
    exact lt_of_le_of_lt (Int.cast_le.mpr hTwo) (by decide)

/-- The limit that the code has is the limit that is set. -/
theorem memoryThreshold?_eq (h : Effective limit gb mb) : memoryThreshold? gb mb = threshold? limit.toInt := by
  rw [Effective] at h
  rw [memoryThreshold?, h]
  by_cases hGB : 0 ≤ gb.toInt
  · rw [if_pos hGB, if_pos hGB, threshold?, if_neg]
    · push_cast
      rfl
    · intro hMinus
      have hInt : 1024 * gb.toInt = -1 := by exact_mod_cast hMinus
      omega
  · rw [if_neg hGB, if_neg hGB]

/-- The memory Monitor compares what the measurement and the limits are rounded to. -/
theorem placed_memory (hLower : Effective mem.lowerLimit config.lowerGB config.lowerMB)
    (hUpper : Effective mem.upperLimit config.upperGB config.upperMB)
    (hEnabled : 0 ≤ config.lowerMB ∨ 0 ≤ config.upperMB ∨ 0 ≤ config.lowerGB ∨ 0 ≤ config.upperGB) :
    Placed config.memoryLimits (float64 mem.lowerLimit) (float64 mem.upperLimit) (float64 a) a.toInt where
  above limit' hLimit hOver := by
    rw [Config.memoryLimits, memoryThreshold?_eq hUpper] at hLimit
    rw [eq_of_mem_threshold? hLimit]
    exact Int.cast_lt.mpr (toInt_lt_of_float64 hOver)
  below limit' hLimit hUnder := by
    rw [Config.memoryLimits, memoryThreshold?_eq hLower] at hLimit
    rw [eq_of_mem_threshold? hLimit]
    exact Int.cast_lt.mpr (toInt_lt_of_float64 hUnder)
  aboveUnset hUnset := by
    rw [Config.memoryLimits, memoryThreshold?_eq hUpper, threshold?_eq_none_iff] at hUnset
    have hMinus : mem.upperLimit.toInt = -1 := by exact_mod_cast hUnset
    rw [float64_neg_one hMinus, neg_one_lt_float64_iff]
    exact_mod_cast Iff.rfl
  belowUnset hUnset := by
    rw [Config.memoryLimits, memoryThreshold?_eq hLower, threshold?_eq_none_iff] at hUnset
    have hMinus : mem.lowerLimit.toInt = -1 := by exact_mod_cast hUnset
    rw [float64_neg_one hMinus, float64_lt_neg_one_iff]
    exact_mod_cast Iff.rfl
  enabled hUnset hBelow hOver := by
    rw [Config.memoryLimits, memoryThreshold?_eq hLower, threshold?_eq_none_iff] at hUnset
    have hMinus : mem.lowerLimit.toInt = -1 := by exact_mod_cast hUnset
    have hMeasured : a.toInt < -1 := by exact_mod_cast hBelow
    have hLess := toInt_lt_of_float64 hOver
    simp only [Int64.le_iff_toInt_le, Int64.toInt_zero] at hEnabled
    rw [Effective, hMinus] at hLower
    rw [Effective] at hUpper
    split at hLower <;> split at hUpper <;> omega

/-- `main` computes the limit that is set when the values in GB and MB convert. -/
theorem effective_iff_converts : Effective (if 0 < gb then gb * 1024 else mb) gb mb ↔ Converts gb mb := by
  have hBelow := Int64.le_toInt gb
  have hAbove := Int64.toInt_lt gb
  rw [Effective, Converts]
  by_cases hPositive : 0 < gb
  · have hGB : 0 < gb.toInt := Int64.lt_iff_toInt_lt.mp hPositive
    have hProduct : (gb * 1024).toInt = (gb.toInt * 1024).bmod (2 ^ 64) := Int64.toInt_mul gb 1024
    rw [if_pos hPositive, if_pos (Int.le_of_lt hGB), hProduct]
    constructor
    · intro hEffective
      have hLess : (gb.toInt * 1024).bmod (2 ^ 64) < 2 ^ 63 := Int.bmod_lt (by decide)
      omega
    · rintro ⟨_, hFits⟩
      have hSmall := hFits hGB
      rw [Int.bmod_eq_of_le] <;> omega
  · have hGB : ¬ 0 < gb.toInt := fun h => hPositive (Int64.lt_iff_toInt_lt.mpr h)
    rw [if_neg hPositive]
    split <;> omega

theorem justified_iff_spares_cpu (hEnabled : 0 ≤ config.lowerCPU ∨ 0 ≤ config.upperCPU) :
    Justified config.cpuLimits node containerID collectionPeriod
      (.cpu ⟨config.lowerCPU, config.upperCPU⟩) progress answers ↔
      Spares config.cpuLimits node containerID collectionPeriod
        (.cpu ⟨config.lowerCPU, config.upperCPU⟩) progress answers := by
  cases progress with
  | ticking lastUsageUsec =>
      have hTurn : (Resource.cpu ⟨config.lowerCPU, config.upperCPU⟩).turn node containerID collectionPeriod
          (.ticking lastUsageUsec) = CPUResource.turn node containerID collectionPeriod cpuUtilization
            ⟨config.lowerCPU, config.upperCPU⟩ lastUsageUsec := rfl
      cases hSelect : answers .selectTick with
      | done =>
          refine justified_iff_spares_of_none (by rw [measured?, hSelect]; rfl) fun asked => ?_
          rw [hTurn, CPUResource.replay_done hSelect, askedFor_cons rfl]
          exact not_askedFor_nil
      | tick =>
          cases hRead : answers (.readCPUUsage containerID) with
          | error err =>
              refine justified_iff_spares_of_none (by rw [measured?, hSelect, hRead]; rfl) fun asked => ?_
              rw [hTurn, CPUResource.replay_error hSelect hRead, askedFor_cons rfl, askedFor_cons rfl]
              exact not_askedFor_nil
          | ok currentUsageUsec =>
              have hMeasured : measured? containerID collectionPeriod (.cpu ⟨config.lowerCPU, config.upperCPU⟩)
                  (.ticking lastUsageUsec) answers =
                    some (cpuUtilization (currentUsageUsec - lastUsageUsec) collectionPeriod) := by
                rw [measured?, hSelect, hRead]
                rfl
              refine justified_iff_spares_of_measured (.ticking currentUsageUsec) hMeasured (fun asked => ?_)
                (justifies_iff (placed_cpu hEnabled))
              rw [hTurn, CPUResource.replay_ok hSelect hRead, askedFor_cons rfl, askedFor_cons rfl]
  | starting =>
      refine justified_iff_spares_of_none rfl fun asked => ?_
      have hTurn : (Resource.cpu ⟨config.lowerCPU, config.upperCPU⟩).turn node containerID collectionPeriod
        .starting =
          CPUResource.begin containerID := rfl
      rw [hTurn, CPUResource.begin, Program.replay_perform, askedFor_cons rfl]
      cases answers (.readCPUUsage containerID) <;> exact not_askedFor_nil
  | polling => exact justified_iff_spares_of_none rfl fun asked => not_askedFor_nil
  | watching serviceID netns => exact justified_iff_spares_of_none rfl fun asked => not_askedFor_nil
  | returned => exact justified_iff_spares_of_none rfl fun asked => not_askedFor_nil
  | exited => exact justified_iff_spares_of_none rfl fun asked => not_askedFor_nil

theorem justified_iff_spares_memory (hLower : Effective mem.lowerLimit config.lowerGB config.lowerMB)
    (hUpper : Effective mem.upperLimit config.upperGB config.upperMB)
    (hEnabled : 0 ≤ config.lowerMB ∨ 0 ≤ config.upperMB ∨ 0 ≤ config.lowerGB ∨ 0 ≤ config.upperGB) :
    Justified config.memoryLimits node containerID collectionPeriod (.memory mem) progress answers ↔
      Spares config.memoryLimits node containerID collectionPeriod (.memory mem) progress answers := by
  cases progress with
  | polling =>
      have hTurn : (Resource.memory mem).turn node containerID collectionPeriod .polling =
        mem.turn node containerID := rfl
      cases hSelect : answers .selectTick with
      | done =>
          refine justified_iff_spares_of_none (by rw [measured?, hSelect]; rfl) fun asked => ?_
          rw [hTurn, MemoryResource.replay_done hSelect, askedFor_cons rfl]
          exact not_askedFor_nil
      | tick =>
          cases hRead : answers (.readMemoryUsage containerID) with
          | error err =>
              refine justified_iff_spares_of_none (by rw [measured?, hSelect, hRead]; rfl) fun asked => ?_
              rw [hTurn, MemoryResource.replay_error hSelect hRead, askedFor_cons rfl, askedFor_cons rfl]
              exact not_askedFor_nil
          | ok memUsage =>
              have hMeasured : measured? containerID collectionPeriod (.memory mem) .polling answers =
                  some (memUsage.toInt : Rat) := by
                rw [measured?, hSelect, hRead]
                rfl
              refine justified_iff_spares_of_measured .polling hMeasured (fun asked => ?_)
                (justifies_iff (placed_memory hLower hUpper hEnabled))
              rw [hTurn, MemoryResource.replay_ok hSelect hRead, askedFor_cons rfl, askedFor_cons rfl]
              exact Iff.rfl
  | starting => exact justified_iff_spares_of_none rfl fun asked => not_askedFor_nil
  | ticking lastUsageUsec => exact justified_iff_spares_of_none rfl fun asked => not_askedFor_nil
  | watching serviceID netns => exact justified_iff_spares_of_none rfl fun asked => not_askedFor_nil
  | returned => exact justified_iff_spares_of_none rfl fun asked => not_askedFor_nil
  | exited => exact justified_iff_spares_of_none rfl fun asked => not_askedFor_nil

end Configuration

/-- For every configuration and every series of measurements: the thresholds mean what they
say exactly under the condition. -/
theorem faithful_iff_sound (config : Config) (node : SwarmNodeInfo) (containerID : String)
    (collectionPeriod : Int64) (series : Series) :
    Faithful config node containerID collectionPeriod series ↔
      Sound config node containerID collectionPeriod series := by
  unfold Faithful Sound
  cases hSelected : selectResource config with
  | none => exact Iff.rfl
  | some resource =>
      cases resource with
      | cpu cpu =>
          obtain ⟨rfl, hEnabled⟩ := cpu_of_selectResource hSelected
          exact ⟨fun h => h.mono fun _ _ => (justified_iff_spares_cpu hEnabled).mp,
            fun h => h.mono fun _ _ => (justified_iff_spares_cpu hEnabled).mpr⟩
      | memory mem =>
          obtain ⟨hMem, hEnabled⟩ := memory_of_selectResource hSelected
          have hLower : Effective mem.lowerLimit config.lowerGB config.lowerMB ↔
              Converts config.lowerGB config.lowerMB := by
            rw [hMem]
            exact effective_iff_converts
          have hUpper : Effective mem.upperLimit config.upperGB config.upperMB ↔
              Converts config.upperGB config.upperMB := by
            rw [hMem]
            exact effective_iff_converts
          dsimp only
          rw [← hLower, ← hUpper]
          refine and_congr_right fun hEffective => ?_
          have hTurn := @justified_iff_spares_memory config node containerID collectionPeriod
          exact ⟨fun h => h.mono fun _ _ => (hTurn hEffective.1 hEffective.2 hEnabled).mp,
            fun h => h.mono fun _ _ => (hTurn hEffective.1 hEffective.2 hEnabled).mpr⟩
      | concReq resource =>
          have hKeep {guard : Watched → Kernel.Action → Prop} (s : Watched) (action : Kernel.Action) (t : Watched)
              (h : Constants resource s.maps) (_ : guard s action) (hStep : watch series.netns s action = some t) :
              Constants resource t.maps := h.step hStep
          exact ⟨meets_of_invariant hKeep (fun _ _ h => (compares_iff_stands h).mp) constants_initBPFListener,
            meets_of_invariant hKeep (fun _ _ h => (compares_iff_stands h).mpr) constants_initBPFListener⟩

end Resources
