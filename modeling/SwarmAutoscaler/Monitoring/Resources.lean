import Mathlib.Data.Rat.Defs
import SwarmAutoscaler.Arith.Binary64
import SwarmAutoscaler.Cluster.Server
import SwarmAutoscaler.Kernel.Maps
import SwarmAutoscaler.Process.Sequential

/-! The three resources that can be monitored. A Monitor is a loop; its code is given turn
by turn, from the receive of its `select` to the next one. -/
namespace Resources

open Cluster (SwarmNodeInfo getManagerNode)
open Kernel (Message)
open Process

/-- What the `select` of a Monitor for CPU or memory has received. -/
inductive Ticked where
  | done
  | tick
  deriving DecidableEq, Repr

/-- What the `select` of a Monitor for concurrent requests has received. -/
inductive Signalled where
  | done
  | signal (threshold : Message)
  deriving DecidableEq, Repr

/-- One read of a cgroup file, one receive, one call of another part of the autoscaler.
`addNamespace` answers with the error that it passes to `log.Fatalf`. -/
inductive Op where
  | readCPUUsage (containerID : String)
  | readMemoryUsage (containerID : String)
  | selectTick
  | selectSignal
  | findServiceIDFromContainer (containerID : String)
  | getContainerNamespace (containerID : String)
  | addNamespace (netns : UInt32)
  | removeNamespace (netns : UInt32)
  | addNamespaceToScalingMap (netns : UInt32)
  | scaleService (containerID direction : String)
  | sendScaleRequest (serviceID direction managerIP : String)
  | sleep
  deriving DecidableEq, Repr

/-- What each operation returns to the Monitor. -/
def Op.Answer : Op → Type
  | .readCPUUsage _ | .readMemoryUsage _ => Except String Int64
  | .selectTick => Ticked
  | .selectSignal => Signalled
  | .findServiceIDFromContainer _ => Except String String
  | .getContainerNamespace _ => Except String UInt32
  | .addNamespace _ | .removeNamespace _ => Except String Unit
  | .scaleService _ _ | .sendScaleRequest _ _ _ => Except String Unit
  | .addNamespaceToScalingMap _ | .sleep => Unit

/-- The operations of the three Monitors, with their answers. -/
abbrev signature : Signature := ⟨Op, Op.Answer⟩

/-- Code of a Monitor. -/
abbrev Code (Result : Type) := Program signature Result

/-- How far a Monitor has come: before its loop, in the loop with the variables that it
carries, returned, or in a process that `log.Fatalf` has ended. -/
inductive Progress where
  | starting
  | ticking (lastUsageUsec : Int64)
  | polling
  | watching (serviceID : String) (netns : UInt32)
  | returned
  | exited
  deriving DecidableEq, Repr

/-- Thresholds in percent, taken as rationals. -/
structure CPUResource where
  lowerUtil : Rat
  upperUtil : Rat
  deriving DecidableEq

/-- The limits for the memory usage, in MB. -/
structure MemoryResource where
  lowerLimit : Int64
  upperLimit : Int64
  deriving DecidableEq

/-- The limits for the number of open connections, and the number of samples beyond them
that make an event. -/
structure ConcReqResource where
  lowerLimit : Int64
  upperLimit : Int64
  bufferLength : Int64
  deriving DecidableEq

/-- The resource that a process watches; `main` takes one for all containers. -/
inductive Resource where
  | cpu (resource : CPUResource)
  | memory (resource : MemoryResource)
  | concReq (resource : ConcReqResource)
  deriving DecidableEq

/-- The direction that a value asks for: the upper threshold is looked at first, and neither
threshold itself asks for anything. -/
def determineScalingDirection (currentValue lowerThreshold upperThreshold : Rat) : String :=
  if upperThreshold < currentValue then "over"
  else if currentValue < lowerThreshold then "under"
  else ""

/-- The conversion `float64(n)` of an `int64`. -/
def float64 (n : Int64) : Rat := Binary64.ofInt n.toInt

/-- `time.Duration.Seconds`, in exact numbers; a duration is a number of nanoseconds. -/
def seconds (duration : Int64) : Rat := duration.toInt / 10 ^ 9

/-- The utilisation in percent, in exact numbers. -/
def cpuUtilization (usageDeltaUsec collectionPeriod : Int64) : Rat :=
  (usageDeltaUsec.toInt / seconds collectionPeriod) / 10 ^ 6 * 100

section Monitors

variable (node : SwarmNodeInfo) (containerID : String) (collectionPeriod : Int64)

/-- The scaling action of a Monitor for CPU or memory, which then goes on. -/
def request (direction : String) (progress : Progress) : Code Progress :=
  if node.autoscalerManager then
    .perform (Op.scaleService containerID direction) fun _ => .done progress
  else
    match getManagerNode node.otherNodes with
    | .error _ => .done .returned
    | .ok managerNode =>
        .perform (Op.findServiceIDFromContainer containerID) fun
          | .error _ => .done .returned
          | .ok serviceID =>
              .perform (Op.sendScaleRequest serviceID direction managerNode.ip) fun _ => .done progress

/-- What CPU and memory Monitors do with a direction. -/
def act (direction : String) (progress : Progress) : Code Progress :=
  if direction ≠ "" then request node containerID direction progress else .done progress

/-- The initial read of the CPU Monitor. -/
def CPUResource.begin : Code Progress :=
  .perform (Op.readCPUUsage containerID) fun
    | .error _ => .done .returned
    | .ok usageUsec => .done (.ticking usageUsec)

/-- A turn of the CPU Monitor, with the arithmetic in which it computes the utilisation. -/
def CPUResource.turn (utilization : Int64 → Int64 → Rat) (cpu : CPUResource) (lastUsageUsec : Int64) :
    Code Progress :=
  .perform Op.selectTick fun
    | .done => .done .returned
    | .tick =>
        .perform (Op.readCPUUsage containerID) fun
          | .error _ => .done (.ticking lastUsageUsec)
          | .ok currentUsageUsec =>
              let usageDeltaUsec := currentUsageUsec - lastUsageUsec
              let direction := determineScalingDirection (utilization usageDeltaUsec collectionPeriod)
                cpu.lowerUtil cpu.upperUtil
              act node containerID direction (.ticking currentUsageUsec)

/-- One turn of the loop: the file is read at each tick, and a failed read is skipped. -/
def MemoryResource.turn (mem : MemoryResource) : Code Progress :=
  .perform Op.selectTick fun
    | .done => .done .returned
    | .tick =>
        .perform (Op.readMemoryUsage containerID) fun
          | .error _ => .done .polling
          | .ok memUsage =>
              let direction := determineScalingDirection (float64 memUsage) (float64 mem.lowerLimit)
                (float64 mem.upperLimit)
              act node containerID direction .polling

/-- What the Monitor for concurrent requests does before its loop. -/
def ConcReqResource.begin : Code Progress :=
  .perform (Op.findServiceIDFromContainer containerID) fun
    | .error _ => .done .exited
    | .ok serviceID =>
        .perform (Op.getContainerNamespace containerID) fun
          | .error _ => .done .exited
          | .ok netns =>
              .perform (Op.addNamespace netns) fun
                | .error _ => .done .exited
                | .ok _ => .done (.watching serviceID netns)

/-- The direction that a message of the kprobe stands for. -/
def directionOf : Message → String
  | .lower => "under"
  | .upper => "over"

/-- One turn of the loop: every signal asks for its direction, and then, after a pause, the
flag of the namespace is cleared. -/
def ConcReqResource.turn (serviceID : String) (netns : UInt32) : Code Progress :=
  let rearm : Code Progress := .perform Op.sleep fun _ =>
    .perform (Op.addNamespaceToScalingMap netns) fun _ => .done (.watching serviceID netns)
  .perform Op.selectSignal fun
    | .done => .perform (Op.removeNamespace netns) fun _ => .done .returned
    | .signal threshold =>
        if node.autoscalerManager then
          .perform (Op.scaleService containerID (directionOf threshold)) fun _ => rearm
        else
          match getManagerNode node.otherNodes with
          | .error _ => .done .returned
          | .ok managerNode =>
              .perform (Op.sendScaleRequest serviceID (directionOf threshold) managerNode.ip) fun _ => rearm

/-- The next turn of `Monitor`. Each resource has its own kind of loop. -/
def Resource.turnIn (utilization : Int64 → Int64 → Rat) : Resource → Progress → Code Progress
  | .cpu _, .starting => CPUResource.begin containerID
  | .cpu resource, .ticking lastUsageUsec =>
      resource.turn node containerID collectionPeriod utilization lastUsageUsec
  | .memory _, .starting => .done .polling
  | .memory resource, .polling => resource.turn node containerID
  | .concReq _, .starting => ConcReqResource.begin containerID
  | .concReq _, .watching serviceID netns => ConcReqResource.turn node containerID serviceID netns
  | _, progress => .done progress

/-- The next turn, with the utilisation in exact numbers. -/
def Resource.turn (resource : Resource) (progress : Progress) : Code Progress :=
  resource.turnIn node containerID collectionPeriod cpuUtilization progress

end Monitors

/-- The direction that an operation asks for. -/
def Op.direction? : Op → Option String
  | .scaleService _ direction | .sendScaleRequest _ direction _ => some direction
  | _ => none

/-- No call fails, every `select` goes on, and nothing is used. -/
def smoothly : (op : Op) → op.Answer
  | .readCPUUsage _ | .readMemoryUsage _ => .ok (0 : Int64)
  | .selectTick => Ticked.tick
  | .selectSignal => Signalled.signal .lower
  | .findServiceIDFromContainer _ => .ok "web"
  | .getContainerNamespace _ => .ok (5 : UInt32)
  | .addNamespace _ | .removeNamespace _ => .ok ()
  | .scaleService _ _ | .sendScaleRequest _ _ _ => .ok ()
  | .addNamespaceToScalingMap _ | .sleep => ()

/-- The direction of a turn that has read the usage. -/
def CPUResource.decide (cpu : CPUResource) (usageDeltaUsec collectionPeriod : Int64) : String :=
  determineScalingDirection (cpuUtilization usageDeltaUsec collectionPeriod) cpu.lowerUtil cpu.upperUtil

/-- The direction that a memory usage asks for, compared as `float64`. -/
def MemoryResource.decide (mem : MemoryResource) (memUsage : Int64) : String :=
  determineScalingDirection (float64 memUsage) (float64 mem.lowerLimit) (float64 mem.upperLimit)

section Replay

variable {node : SwarmNodeInfo} {containerID direction : String} {collectionPeriod : Int64} {progress : Progress}
  {answers : (op : Op) → op.Answer}

/-- After a scaling action the Monitor goes on, or it has returned. -/
theorem replay_act_snd : ((act node containerID direction progress).replay answers).2 = progress ∨
    ((act node containerID direction progress).replay answers).2 = .returned := by
  unfold act request
  split
  · split
    · exact Or.inl rfl
    · split
      · exact Or.inr rfl
      · rw [Program.replay_perform]
        cases answers (.findServiceIDFromContainer containerID) with
        | error err => exact Or.inr rfl
        | ok serviceID => exact Or.inl rfl
  · exact Or.inl rfl

variable {cpu : CPUResource} {mem : MemoryResource} {lastUsageUsec currentUsageUsec memUsage : Int64}
  {err : String} {utilization : Int64 → Int64 → Rat}

theorem CPUResource.replay_done (hDone : answers .selectTick = Ticked.done) :
    (cpu.turn node containerID collectionPeriod utilization lastUsageUsec).replay answers = ([.selectTick], .returned) := by
  rw [CPUResource.turn, Program.replay_perform, hDone]
  rfl

theorem CPUResource.replay_error (hTick : answers .selectTick = Ticked.tick)
    (hRead : answers (.readCPUUsage containerID) = .error err) :
    (cpu.turn node containerID collectionPeriod utilization lastUsageUsec).replay answers =
      ([.selectTick, .readCPUUsage containerID], .ticking lastUsageUsec) := by
  rw [CPUResource.turn, Program.replay_perform, hTick]
  dsimp only
  rw [Program.replay_perform, hRead]
  rfl

theorem CPUResource.replay_ok (hTick : answers .selectTick = Ticked.tick)
    (hRead : answers (.readCPUUsage containerID) = .ok currentUsageUsec) :
    (cpu.turn node containerID collectionPeriod utilization lastUsageUsec).replay answers =
      (.selectTick :: .readCPUUsage containerID :: ((act node containerID (determineScalingDirection
          (utilization (currentUsageUsec - lastUsageUsec) collectionPeriod) cpu.lowerUtil cpu.upperUtil)
            (.ticking currentUsageUsec)).replay answers).1,
        ((act node containerID (determineScalingDirection
          (utilization (currentUsageUsec - lastUsageUsec) collectionPeriod) cpu.lowerUtil cpu.upperUtil)
            (.ticking currentUsageUsec)).replay answers).2) := by
  rw [CPUResource.turn, Program.replay_perform, hTick]
  dsimp only
  rw [Program.replay_perform, hRead]

theorem MemoryResource.replay_done (hDone : answers .selectTick = Ticked.done) :
    (mem.turn node containerID).replay answers = ([.selectTick], .returned) := by
  rw [MemoryResource.turn, Program.replay_perform, hDone]
  rfl

theorem MemoryResource.replay_error (hTick : answers .selectTick = Ticked.tick)
    (hRead : answers (.readMemoryUsage containerID) = .error err) :
    (mem.turn node containerID).replay answers = ([.selectTick, .readMemoryUsage containerID], .polling) := by
  rw [MemoryResource.turn, Program.replay_perform, hTick]
  dsimp only
  rw [Program.replay_perform, hRead]
  rfl

theorem MemoryResource.replay_ok (hTick : answers .selectTick = Ticked.tick)
    (hRead : answers (.readMemoryUsage containerID) = .ok memUsage) :
    (mem.turn node containerID).replay answers =
      (.selectTick :: .readMemoryUsage containerID ::
          ((act node containerID (mem.decide memUsage) .polling).replay answers).1,
        ((act node containerID (mem.decide memUsage) .polling).replay answers).2) := by
  rw [MemoryResource.turn, Program.replay_perform, hTick]
  dsimp only
  rw [Program.replay_perform, hRead]
  rfl

end Replay

end Resources
