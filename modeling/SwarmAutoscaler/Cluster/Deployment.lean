import SwarmAutoscaler.Cluster.Scale

/-! The deployments and runs that the results about the cluster are for: one manager,
any number of workers, requests for one service. -/
namespace Cluster

open Docker Process

/-- The count that Docker has stored for the service. -/
def World.replicas (w : World) (serviceID : String) : Option UInt64 :=
  (w.services serviceID).bind fun service => service.spec.replicas?

@[simp] theorem replicas_setService (w : World) (serviceID : String) (service : Service) :
    (w.setService serviceID service).replicas serviceID = service.spec.replicas? := by
  simp [World.replicas]

/-- No scale-down, wake-up, request or message of this thread is in progress: event
loops wait for packets, keep-alive goroutines are over or still wait for their timer. -/
def idle (thread : Thread signature Call Result) : Bool :=
  match thread.call, thread.program.head with
  | .listener ip, some (.perfRead ip') => ip == ip'
  | .request _ _ _, none => true
  | .keepAlive _ _ _, none => true
  | .keepAlive _ _ _, some (.selectTimer _ _) => true
  | _, _ => false

/-- One manager and any number of workers, each with all the other nodes in its list; a
worker may list itself, as `createswarmNodeInfo` makes it do. -/
structure OneManager (nodes : Nodes) (manager : String) : Prop where
  manager_mem : manager ∈ nodes.ips
  manages : ∀ ip ∈ nodes.ips, (nodes.info ip).autoscalerManager = true ↔ ip = manager
  others : ∀ ip ∈ nodes.ips, ∀ other ∈ nodes.ips, other ≠ ip →
    ∃ node ∈ (nodes.info ip).otherNodes, node.ip = other
  roles : ∀ ip ∈ nodes.ips, ∀ node ∈ (nodes.info ip).otherNodes,
    node.manager = true ↔ node.ip = manager

/-- Requests come to nodes of the cluster and are for the one service of the model. -/
def ForService (nodes : Nodes) (serviceID : String) : Call → Prop
  | .request ip id _ => ip ∈ nodes.ips ∧ id = serviceID
  | _ => False

instance (nodes : Nodes) (serviceID : String) : DecidablePred (ForService nodes serviceID)
  | .request ip id _ => inferInstanceAs (Decidable (ip ∈ nodes.ips ∧ id = serviceID))
  | .keepAlive _ _ _ | .listener _ => isFalse id

/-- Runs about one service in which no call fails. -/
def OneServiceRun (nodes : Nodes) (serviceID : String) (s : State) (action : Action) : Prop :=
  Machine.Admits (ForService nodes serviceID) s action ∧ (machine nodes).AnswersWith Succeeds s action

instance (nodes : Nodes) (serviceID : String) (s : State) (action : Action) :
    Decidable (OneServiceRun nodes serviceID s action) :=
  inferInstanceAs (Decidable (_ ∧ _))

/-- The service runs, nobody listens on its port yet. -/
def awake (service : Service) : World :=
  { services := Function.update (fun _ => none) service.id (some service) }

/-- A manager and one worker. -/
def pair : Nodes where
  ips := ["manager", "worker"]
  info ip :=
    if ip = "manager" then ⟨true, [⟨"host2", "worker", false⟩], 5⟩
    else ⟨false, [⟨"host1", "manager", true⟩], 5⟩

theorem oneManager_pair : OneManager pair "manager" where
  manager_mem := by decide
  manages := by decide
  others := by decide
  roles := by decide

/-- A service that publishes port 80, with a number of replicas. -/
def web (replicas : UInt64) : Service where
  id := "web"
  spec := { mode := { replicated := some ⟨some replicas⟩ } }
  endpoint := [80]

/-- The same with a handler node. -/
def tied (replicas : UInt64) (constraints : List String) : Service :=
  let service := web replicas
  { service with
    spec := { service.spec with
      labels := [("autoscaler.handlerNode", "host1")]
      taskTemplate := { placement := some { constraints := constraints } } } }

end Cluster
