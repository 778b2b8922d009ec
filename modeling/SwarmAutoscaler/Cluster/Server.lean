import SwarmAutoscaler.Cluster.Operations

/-! The HTTP layer between the nodes. A request runs its handler on the other node while
the client waits, so the handler's operations appear in the client's program, after the
operation that delivers the request. The client looks at the delivery alone. -/
namespace Cluster

open Docker Process

/-- The first manager among the peers; a worker asks this one and no other. -/
def getManagerNode : List SwarmNode → Except String SwarmNode
  | [] => .error "no manager node found"
  | node :: rest => if node.manager then .ok node else getManagerNode rest

/-- A request as the handler sees it: `body` is the outcome of decoding the JSON body. -/
structure Request (Data : Type) where
  method : String
  body : Except String Data

/-- What the handler writes: the status and the text of the body. -/
structure Response where
  status : Nat
  text : String
  deriving DecidableEq, Repr

/-- `http.Error` ends the text with a line end. -/
def httpError (text : String) (status : Nat) : Response := ⟨status, text ++ "\n"⟩

/-- The shape all three handlers share. -/
def handle {Data : Type} (success : String) (action : Data → Code Result) (r : Request Data) :
    Code Response :=
  if r.method ≠ "POST" then .done (httpError "Unsupported method" 405)
  else
    match r.body with
    | .error err => .done (httpError err 400)
    | .ok data => (action data).bind fun
        | .error err => .done (httpError err 500)
        | .ok _ => .done ⟨200, success⟩

/-- The handler of a manager's server for scale requests. -/
def createScalerHandler (scaleFunc : String → String → Code Result) :
    Request (String × String) → Code Response :=
  handle "Scaling successful." fun data => scaleFunc data.1 data.2

/-- The handler of every node's port server for requests to wait for packets. -/
def listenPortHandler (listenOnPortFunc : UInt32 → String → Code Result) :
    Request (UInt32 × String) → Code Response :=
  handle "Listening on port." fun data => listenOnPortFunc data.1 data.2

/-- The handler of every node's port server for requests to stop waiting. -/
def removePortHandler (removePortFunc : UInt32 → Code Result) : Request UInt32 → Code Response :=
  handle "Removed port." removePortFunc

/-- `net/http` recovers a panic of the function behind a handler. The server stays up, and
the client gets no response. -/
def Op.trap : Op → Option Op
  | .nilDereference => some .recover
  | _ => none

theorem Op.trap_eq_some_iff {op handler : Op} :
    op.trap = some handler ↔ op = .nilDereference ∧ handler = .recover := by
  cases op <;> simp [Op.trap, eq_comm]

/-- The shape all three clients share: deliver the request, let the handler answer it,
and report success whatever the status of the response is. -/
def post {Data : Type} (context ip : String) (endpoint : Endpoint)
    (handler : Request Data → Code Response) (data : Data) : Code Result :=
  .perform (Op.httpPost ip endpoint) fun
    | .error err => .done (.error (context ++ err))
    | .ok _ => ((handler ⟨"POST", .ok data⟩).attempt Op.trap).bind fun
        | none => .done (.error (context ++ "EOF"))
        | some _ => .done (.ok ())

/-- A worker asks the manager at an address to scale. -/
def sendScaleRequest (scaleFunc : String → String → Code Result)
    (serviceId direction managerIP : String) : Code Result :=
  post "error sending scale request to manager node: " managerIP .scale
    (createScalerHandler scaleFunc) (serviceId, direction)

/-- A manager asks one node to wait for packets; the text of its error says "manager node"
as the source does. -/
def sendListenRequest (listenOnPortFunc : UInt32 → String → Code Result)
    (port : UInt32) (serviceID ip : String) : Code Result :=
  post "error sending listen request to manager node: " ip .listen
    (listenPortHandler listenOnPortFunc) (port, serviceID)

/-- A node asks another one to stop waiting for packets. -/
def sendRemoveRequest (removePortFunc : UInt32 → Code Result) (port : UInt32) (ip : String) :
    Code Result :=
  post "error sending remove request to manager node: " ip .remove
    (removePortHandler removePortFunc) port

/-- The loop of both broadcasts: one request after the other, up to the first error. -/
def broadcast (context : String) (send : String → Code Result) : List SwarmNode → Code Result
  | [] => .done (.ok ())
  | node :: rest => (send node.ip).bind fun
      | .error err => .done (.error (context ++ node.ip ++ ": " ++ err))
      | .ok _ => broadcast context send rest

/-- `listenOnPort ip` is the function that the process at `ip` gave to its server. -/
def sendListenRequestToAllNodes (listenOnPort : String → UInt32 → String → Code Result)
    (swarmNodeInfo : SwarmNodeInfo) (port : UInt32) (serviceID : String) : Code Result :=
  broadcast "error sending listen request to node "
    (fun ip => sendListenRequest (listenOnPort ip) port serviceID ip) swarmNodeInfo.otherNodes

/-- The broadcast after a wake-up. `removePort ip` is the function that the process at `ip`
gave to its server. -/
def sendRemoveRequestToAllNodes (removePort : String → UInt32 → Code Result)
    (swarmNodeInfo : SwarmNodeInfo) (port : UInt32) : Code Result :=
  broadcast "error sending remove request to node "
    (fun ip => sendRemoveRequest (removePort ip) port ip) swarmNodeInfo.otherNodes

end Cluster
