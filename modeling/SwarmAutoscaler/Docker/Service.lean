import Mathlib.Algebra.Order.Ring.Nat
import Mathlib.Data.List.Basic

/-! The part of a Swarm service that the autoscaler reads or writes. A pointer that
may be nil is an `Option`; a nil slice is the empty list. Fields that are only copied
are kept as one opaque value each, so that a whole spec can be written back. -/
namespace Docker

/-- Where the tasks of a service may run. `other` stands for the fields that the autoscaler
only copies. -/
structure Placement where
  constraints : List String := []
  other : String := ""
  deriving DecidableEq, Repr

/-- The template of the tasks, with a placement if one was ever given. -/
structure TaskSpec where
  placement : Option Placement := some {}
  other : String := ""
  deriving DecidableEq, Repr

/-- The replicated mode; its count is a pointer in Docker's API. -/
structure ReplicatedService where
  replicas : Option UInt64
  deriving DecidableEq, Repr

/-- The mode of a service: replicated, or one of the others, which have no count. -/
structure ServiceMode where
  replicated : Option ReplicatedService
  other : String := ""
  deriving DecidableEq, Repr

/-- The part of a service that an update replaces as a whole. -/
structure ServiceSpec where
  labels : List (String × String) := []
  taskTemplate : TaskSpec := {}
  mode : ServiceMode
  other : String := ""
  deriving DecidableEq, Repr

/-- A service as `ServiceInspect` returns it: `version` is the index an update has to
name, `endpoint` the published ports in order. -/
structure Service where
  id : String
  version : Nat := 0
  spec : ServiceSpec
  endpoint : List UInt32 := []
  deriving DecidableEq, Repr

namespace ServiceSpec

/-- `Mode.Replicated.Replicas`, when neither pointer is nil. -/
def replicas? (spec : ServiceSpec) : Option UInt64 :=
  spec.mode.replicated.bind ReplicatedService.replicas

/-- The spec with another count, in replicated mode. -/
def setReplicas (spec : ServiceSpec) (replicas : UInt64) : ServiceSpec :=
  { spec with mode := { spec.mode with replicated := some ⟨some replicas⟩ } }

/-- The spec with another placement. -/
def setPlacement (spec : ServiceSpec) (placement : Placement) : ServiceSpec :=
  { spec with taskTemplate := { spec.taskTemplate with placement := some placement } }

@[simp] theorem replicas?_setReplicas (spec : ServiceSpec) (replicas : UInt64) :
    (spec.setReplicas replicas).replicas? = some replicas := rfl

@[simp] theorem replicas?_setPlacement (spec : ServiceSpec) (placement : Placement) :
    (spec.setPlacement placement).replicas? = spec.replicas? := rfl

end ServiceSpec
end Docker
