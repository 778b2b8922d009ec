import SwarmAutoscaler.Cluster.Server

/-! The scaling code of a manager and the port listener of every node, one operation at
a time, and the machine in which any number of them run at once. -/
namespace Cluster

open Docker Process

/-- A nil pointer is followed. Nothing of the program remains to be run; what comes next is
up to the server where the program runs behind a handler. -/
def nilDereference {Value : Type} : Code Value :=
  .perform Op.nilDereference fun never => nomatch never

/-- Pin the service to its handler node or release it. The list of constraints is replaced
as a whole, under the version of the copy that the caller holds. -/
def updateServiceConstraints (service : Service) (add : Bool) : Code Result :=
  match service.spec.labels.lookup "autoscaler.handlerNode" with
  | none => .done (.ok ())  -- implicit ownership
  | some hostName =>
      match service.spec.taskTemplate.placement with
      | none => nilDereference
      | some placement =>
          let constraints :=
            if add then ["node.hostname==" ++ hostName]
            else if placement.constraints ≠ [] then [] else placement.constraints
          .perform (Op.serviceUpdate service.id service.version
            (service.spec.setPlacement { placement with constraints := constraints })) .done

/-- Scale the service to a number of replicas, under the version of an inspect of its own. -/
def scaleTo (serviceID : String) (replicas : UInt64) : Code Result :=
  .perform (Op.serviceInspect serviceID) fun
    | .error err => .done (.error err)
    | .ok service =>
        match service.spec.mode.replicated with
        | none => nilDereference
        | some _ =>
            .perform (Op.serviceUpdate serviceID service.version
              (service.spec.setReplicas replicas)) fun
              | .error err => .done (.error err)
              | .ok _ => .done (.ok ())

/-- The process a piece of code runs in. -/
structure Instance where
  ip : String
  nodeInfo : SwarmNodeInfo

/-- Cancel the keep-alive operation of the service if there is one, then scale. -/
def cancelKeepAlive (self : Instance) (serviceID : String) (newReplicas : UInt64) : Code Result :=
  .perform (Op.keepAliveOpsGet self.ip serviceID) fun
    | none => scaleTo serviceID newReplicas
    | some keepAliveCh =>
        .perform (Op.chanSend keepAliveCh) fun _ =>
          .perform (Op.keepAliveOpsDelete self.ip serviceID) fun _ =>
            scaleTo serviceID newReplicas

/-- Start a keep-alive operation for the service unless there is one. -/
def startKeepAlive (self : Instance) (serviceID : String) : Code Result :=
  .perform (Op.keepAliveOpsHas self.ip serviceID) fun
    | true => .done (.ok ())
    | false =>
        .perform Op.makeChan fun keepAliveCh =>
          .perform (Op.keepAliveOpsSet self.ip serviceID keepAliveCh) fun _ =>
            .perform (Op.goKeepAlive self.ip serviceID keepAliveCh) fun _ => .done (.ok ())

/-- The "over" branch of `changeServiceReplicas`. -/
def changeOver (self : Instance) (serviceID : String) (service : Service)
    (currentReplicas : UInt64) : Code Result :=
  (if currentReplicas = 1 then updateServiceConstraints service false else .done (.ok ())).bind fun
    | .error err => .done (.error ("error removing constraint from service: " ++ err))
    | .ok _ => cancelKeepAlive self serviceID (currentReplicas + 1)

/-- The "under" branch of `changeServiceReplicas`. -/
def changeUnder (self : Instance) (serviceID : String) (service : Service)
    (currentReplicas : UInt64) : Code Result :=
  if currentReplicas > 1 then
    let newReplicas := currentReplicas - 1
    (if newReplicas = 1 then updateServiceConstraints service true else .done (.ok ())).bind fun
      | .error err => .done (.error ("error adding constraint to service: " ++ err))
      | .ok _ => scaleTo serviceID newReplicas
  else startKeepAlive self serviceID

/-- A scale request as the manager handles it: the count is read once, the constraints are
changed at 1 and 2, and at 1 the last replica is left to a keep-alive. -/
def changeServiceReplicas (self : Instance) (serviceID direction : String) : Code Result :=
  if !self.nodeInfo.autoscalerManager then
    .done (.error "changeServiceReplicas should only be called on manager node")
  else
    .perform (Op.serviceInspect serviceID) fun
      | .error err => .done (.error err)
      | .ok service =>
          match service.spec.replicas? with
          | none => .done (.error "service mode is not replicated or replicas are not set")
          | some currentReplicas =>
              if direction = "over" then changeOver self serviceID service currentReplicas
              else if direction = "under" then changeUnder self serviceID service currentReplicas
              else .done (.error ("invalid direction: " ++ direction))

/-- The first published port of the service. -/
def getPublishedPort (serviceID : String) : Code (Except String UInt32) :=
  .perform (Op.serviceInspect serviceID) fun
    | .error err => .done (.error err)
    | .ok service =>
        match service.endpoint with
        | publishedPort :: _ => .done (.ok publishedPort)
        | [] => .done (.error ("no published ports found for service " ++ serviceID))

/-- Wait for packets to a port of a sleeping service: first the Go map, then the BPF map,
whose error leaves the first entry where it is. -/
def listenOnPort (ip : String) (port : UInt32) (serviceID : String) : Code Result :=
  .perform (Op.portToServiceIDStore ip port serviceID) fun _ =>
    .perform (Op.portsMapUpdate ip port 1) fun
      | .error err => .done (.error ("failed to add port to BPF map: " ++ err))
      | .ok _ => .done (.ok ())

/-- No longer wait for packets to a port: the Go map first, then the BPF map. -/
def removePort (ip : String) (port : UInt32) : Code Result :=
  .perform (Op.portToServiceIDLoad ip port) fun
    | none => .done (.error ("service ID %!s(<nil>) for port " ++ toString port ++ " not found in RemovePort"))
    | some _ =>
        .perform (Op.portToServiceIDDelete ip port) fun _ =>
          .perform (Op.portsMapDelete ip port) fun
            | .error err => .done (.error ("failed to remove port from BPF map: " ++ err))
            | .ok _ => .done (.ok ())

/-- What `keepAliveAndScaleDown` does when its timer fires. The goroutine returns nothing;
an error here is one that it logs before it gives up. -/
def scaleDown (self : Instance) (serviceID : String) : Code Result :=
  .perform (Op.keepAliveOpsHas self.ip serviceID) fun
    | false => .done (.ok ())
    | true => (getPublishedPort serviceID).bind fun
        | .error err => .done (.error err)
        | .ok port => (listenOnPort self.ip port serviceID).bind fun
            | .error err => .done (.error err)
            | .ok _ =>
                (sendListenRequestToAllNodes listenOnPort self.nodeInfo port serviceID).bind fun
                  | .error err => .done (.error err)
                  | .ok _ => (scaleTo serviceID 0).bind fun
                      | .error err => .done (.error err)
                      | .ok _ =>
                          .perform (Op.keepAliveOpsDelete self.ip serviceID) fun _ =>
                            .done (.ok ())

/-- The goroutine of a keep-alive: whichever comes first, the cancellation on its channel or
the timer, decides. -/
def keepAliveAndScaleDown (self : Instance) (serviceID : String) (keepAliveCh : Nat) :
    Code Result :=
  .perform (Op.selectTimer self.nodeInfo.keepAlive keepAliveCh) fun
    | .received => .done (.ok ())
    | .timer => scaleDown self serviceID

section Listener

variable (nodes : Nodes) (ip : String)

/-- The last part of a wake-up. Without a manager among the other nodes a worker posts
to the empty address of the zero `SwarmNode`. -/
def scaleBackUp (serviceID : String) : Code Result :=
  if (nodes.info ip).autoscalerManager then scaleTo serviceID 1
  else
    let manager :=
      match getManagerNode (nodes.info ip).otherNodes with
      | .ok node => node.ip
      | .error _ => ""
    sendScaleRequest (changeServiceReplicas ⟨manager, nodes.info manager⟩) serviceID "over" manager

/-- A packet event for a port: forget the port on every node, then scale back up. All
errors are logged and dropped. -/
def wakeUp (port : UInt32) (serviceID : String) : Code Result :=
  (removePort ip port).bind fun _ =>
    (sendRemoveRequestToAllNodes removePort (nodes.info ip) port).bind fun _ =>
      scaleBackUp nodes ip serviceID

/-- One turn of the loop of `listenForEvents`. -/
def listenForEvents : Code Result :=
  .perform (Op.perfRead ip) fun
    | .error _ => .done (.ok ())
    | .ok rawSample =>
        if 4 ≤ rawSample.length then
          let port := littleEndianUint32 (rawSample.take 4)
          .perform (Op.portToServiceIDLoad ip port) fun
            | none => .done (.ok ())
            | some serviceID => wakeUp nodes ip port serviceID
        else .done (.ok ())

end Listener

/-- The kinds of threads: a scale request on a manager, from its own monitors or over
HTTP, a keep-alive goroutine, and the event loop of a node. -/
inductive Call where
  | request (ip serviceID direction : String)
  | keepAlive (ip serviceID : String) (ch : Nat)
  | listener (ip : String)
  deriving DecidableEq, Repr

/-- The code that a thread of each kind runs. -/
def body (nodes : Nodes) : Call → Code Result
  | .request ip serviceID direction => changeServiceReplicas ⟨ip, nodes.info ip⟩ serviceID direction
  | .keepAlive ip serviceID ch => keepAliveAndScaleDown ⟨ip, nodes.info ip⟩ serviceID ch
  | .listener ip => listenForEvents nodes ip

/-- All nodes together: any number of requests, keep-alives and event loops, of which an
event loop starts over and a keep-alive is started by a request. -/
def machine (nodes : Nodes) : Machine signature World Call Result Env where
  body := body nodes
  again := fun call _ =>
    match call with
    | .listener ip => some (listenForEvents nodes ip)
    | _ => none
  forks := fun
    | .goKeepAlive ip serviceID ch => some (.keepAlive ip serviceID ch)
    | _ => none
  exec := exec nodes
  meet := meet
  disturb := disturb

/-- States of the whole cluster: Docker, the tables of the nodes, the running goroutines and
the log of their operations. -/
abbrev State := Process.State signature World Call Result

/-- One choice of the scheduler. -/
abbrev Action := Process.Action Call Env

/-- An operation of the log, with the thread that performed it and its answer. -/
abbrev Event := Process.Event signature Result

@[simp] theorem settle_request (nodes : Nodes) (ip serviceID direction : String) (program : Code Result) :
    (machine nodes).settle (.request ip serviceID direction) program = program :=
  (machine nodes).settle_eq (fun _ => rfl) program

@[simp] theorem settle_keepAlive (nodes : Nodes) (ip serviceID : String) (ch : Nat)
    (program : Code Result) : (machine nodes).settle (.keepAlive ip serviceID ch) program = program :=
  (machine nodes).settle_eq (fun _ => rfl) program

/-- Every node's event loop waits for packets and nothing else runs. -/
def start (nodes : Nodes) (w : World) : State :=
  { world := w
    threads := nodes.ips.map fun ip => ⟨.listener ip, listenForEvents nodes ip⟩ }

end Cluster
