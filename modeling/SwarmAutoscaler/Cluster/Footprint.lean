import SwarmAutoscaler.Cluster.Scale

/-! Which operations each function can come to perform, for any set of allowed
operations that contains them. -/
namespace Cluster

open Docker Process

variable {answers : (op : Op) → op.Answer → Prop} {allowed : Op → Prop}

/-- `scaleTo` inspects the service and updates it to the count it was given; a service that
is not replicated stops it in between. -/
theorem uses_scaleTo {serviceID : String}
    {replicas : UInt64} (hInspect : allowed (.serviceInspect serviceID)) (hNil : allowed .nilDereference)
    (hUpdate : ∀ version (spec : ServiceSpec), spec.replicas? = some replicas →
      allowed (.serviceUpdate serviceID version spec)) :
    (scaleTo serviceID replicas).Uses answers allowed := by
  refine ⟨hInspect, fun answer _ => ?_⟩
  cases answer with
  | error err => trivial
  | ok service =>
      dsimp only
      split
      · exact ⟨hNil, fun never => nomatch never⟩
      · refine ⟨hUpdate _ _ (ServiceSpec.replicas?_setReplicas _ _), fun answer _ => ?_⟩
        cases answer <;> trivial

/-- A change of the constraints is one update of the service whose copy it has, and this
update keeps the count of the copy. -/
theorem uses_updateServiceConstraints {service : Service} {add : Bool}
    (hNil : allowed .nilDereference)
    (hUpdate : ∀ version (spec : ServiceSpec), spec.replicas? = service.spec.replicas? →
      allowed (.serviceUpdate service.id version spec)) :
    (updateServiceConstraints service add).Uses answers allowed := by
  unfold updateServiceConstraints
  split
  · trivial
  · split
    · exact ⟨hNil, fun never => nomatch never⟩
    · exact ⟨hUpdate _ _ (ServiceSpec.replicas?_setPlacement _ _), fun _ _ => trivial⟩

/-- A broadcast does what its requests do, whichever of them are reached. -/
theorem uses_broadcast {context : String} {send : String → Code Result} {others : List SwarmNode}
    (hSend : ∀ ip, (send ip).Uses answers allowed) :
    (broadcast context send others).Uses answers allowed := by
  induction others with
  | nil => trivial
  | cons node rest ih =>
      refine Program.uses_bind (hSend node.ip) fun result => ?_
      cases result with
      | error err => trivial
      | ok _ => exact ih

/-- A request is its delivery followed by what the function behind the handler does, which
runs only after a delivery that was possible and whose panic is recovered. -/
theorem uses_post {Data : Type}
    {context ip success : String} {endpoint : Endpoint} {action : Data → Code Result} {data : Data}
    (hPost : allowed (.httpPost ip endpoint)) (hRecover : allowed .nilDereference → allowed .recover)
    (hAction : answers (.httpPost ip endpoint) (.ok ()) →
      (action data).Uses answers allowed) :
    (post context ip endpoint (handle success action) data).Uses answers allowed := by
  refine ⟨hPost, fun answer hAnswer => ?_⟩
  cases answer with
  | error err => trivial
  | ok _ =>
      refine Program.uses_bind (Program.uses_attempt ?_ fun op handler hTrap hOp => ?_) fun response => ?_
      · simp only [handle, ne_eq, not_true_eq_false, ↓reduceIte]
        refine Program.uses_bind (hAction hAnswer) fun result => ?_
        cases result <;> trivial
      · obtain ⟨rfl, rfl⟩ := Op.trap_eq_some_iff.mp hTrap
        exact hRecover hOp
      · cases response <;> trivial

/-- Whatever the node that is asked does, its panics do not reach the client. -/
theorem faultless_post {Data : Type} {context ip : String} {endpoint : Endpoint}
    {handler : Request Data → Code Response} {data : Data} :
    (post context ip endpoint handler data).Uses answers fun op : Op => op.trap = none := by
  refine ⟨rfl, fun answer _ => ?_⟩
  cases answer with
  | error err => trivial
  | ok _ =>
      refine Program.uses_bind (Program.faultless_attempt (fun op handler hTrap => ?_) _) fun response => ?_
      · obtain ⟨rfl, rfl⟩ := Op.trap_eq_some_iff.mp hTrap
        rfl
      · cases response <;> trivial

/-- Only the tables of the node itself, and there only the keys of the port, are written. -/
theorem uses_listenOnPort {ip id : String} {port : UInt32} (hStore : allowed (.portToServiceIDStore ip port id))
    (hUpdate : allowed (.portsMapUpdate ip port 1)) :
    (listenOnPort ip port id).Uses answers allowed := by
  refine ⟨hStore, fun _ _ => ⟨hUpdate, fun answer _ => ?_⟩⟩
  cases answer <;> trivial

/-- The removal of a port looks it up first and touches nothing but the two entries of the
port. -/
theorem uses_removePort {ip : String} {port : UInt32} (hLoad : allowed (.portToServiceIDLoad ip port))
    (hDelete : allowed (.portToServiceIDDelete ip port))
    (hMap : allowed (.portsMapDelete ip port)) :
    (removePort ip port).Uses answers allowed := by
  refine ⟨hLoad, fun answer _ => ?_⟩
  cases answer with
  | none => trivial
  | some id =>
      refine ⟨hDelete, fun _ _ => ⟨hMap, fun answer _ => ?_⟩⟩
      cases answer <;> trivial

/-- The port of a node is entered in its tables without a panic, so the client learns of the
delivery alone. -/
theorem sendListenRequest_eq {ip serviceID : String} {port : UInt32} :
    sendListenRequest (listenOnPort ip) port serviceID ip = .perform (Op.httpPost ip .listen) fun
      | .error err => .done (.error ("error sending listen request to manager node: " ++ err))
      | .ok _ => (listenOnPort ip port serviceID).bind fun _ => .done (.ok ()) := by
  unfold sendListenRequest post
  congr 1
  funext delivery
  cases delivery with
  | error err => rfl
  | ok _ =>
      have hUses : (listenOnPort ip port serviceID).Uses anyAnswer fun op : Op => op.trap = none :=
        uses_listenOnPort rfl rfl
      simp only [listenPortHandler, handle, ne_eq, not_true_eq_false, ↓reduceIte, Program.attempt_bind,
        Program.attempt_of_uses hUses, Program.bind_assoc]
      refine Program.bind_congr fun result => ?_
      cases result <;> rfl

/-- Nor does the removal of a port panic. -/
theorem sendRemoveRequest_eq {ip : String} {port : UInt32} :
    sendRemoveRequest (removePort ip) port ip = .perform (Op.httpPost ip .remove) fun
      | .error err => .done (.error ("error sending remove request to manager node: " ++ err))
      | .ok _ => (removePort ip port).bind fun _ => .done (.ok ()) := by
  unfold sendRemoveRequest post
  congr 1
  funext delivery
  cases delivery with
  | error err => rfl
  | ok _ =>
      have hUses : (removePort ip port).Uses anyAnswer fun op : Op => op.trap = none :=
        uses_removePort rfl rfl rfl
      simp only [removePortHandler, handle, ne_eq, not_true_eq_false, ↓reduceIte, Program.attempt_bind,
        Program.attempt_of_uses hUses, Program.bind_assoc]
      refine Program.bind_congr fun result => ?_
      cases result <;> rfl

/-- The published port comes from one inspect. -/
theorem uses_getPublishedPort {serviceID : String}
    (hInspect : allowed (.serviceInspect serviceID)) :
    (getPublishedPort serviceID).Uses answers allowed := by
  refine ⟨hInspect, fun answer _ => ?_⟩
  cases answer with
  | error err => trivial
  | ok service =>
      dsimp only
      split <;> trivial

/-- What the end of a timer can do: look for the entry, listen on this node and have the
others listen, and last update the service to 0. -/
theorem uses_scaleDown {self : Instance} {serviceID : String}
    (hHas : allowed (.keepAliveOpsHas self.ip serviceID))
    (hInspect : allowed (.serviceInspect serviceID))
    (hStore : ∀ ip port, allowed (.portToServiceIDStore ip port serviceID))
    (hMap : ∀ ip port, allowed (.portsMapUpdate ip port 1))
    (hPost : ∀ ip, allowed (.httpPost ip .listen)) (hNil : allowed .nilDereference) (hRecover : allowed .recover)
    (hUpdate : ∀ version (spec : ServiceSpec), spec.replicas? = some 0 →
      allowed (.serviceUpdate serviceID version spec))
    (hDelete : allowed (.keepAliveOpsDelete self.ip serviceID)) :
    (scaleDown self serviceID).Uses answers allowed := by
  refine ⟨hHas, fun exists? _ => ?_⟩
  cases exists? with
  | false => trivial
  | true =>
      refine Program.uses_bind (uses_getPublishedPort hInspect) fun result => ?_
      cases result with
      | error err => trivial
      | ok port =>
          refine Program.uses_bind (uses_listenOnPort (hStore _ _) (hMap _ _)) fun result => ?_
          cases result with
          | error err => trivial
          | ok _ =>
              refine Program.uses_bind (uses_broadcast fun ip => uses_post (hPost ip)
                (fun _ => hRecover) fun _ => uses_listenOnPort (hStore _ _) (hMap _ _)) fun result => ?_
              cases result with
              | error err => trivial
              | ok _ =>
                  refine Program.uses_bind (uses_scaleTo hInspect hNil hUpdate) fun result => ?_
                  cases result with
                  | error err => trivial
                  | ok _ => exact ⟨hDelete, fun _ _ => trivial⟩

/-- The goroutine of a keep-alive waits once, and all that it does besides is what the end
of its timer does. -/
theorem uses_keepAliveAndScaleDown {self : Instance} {serviceID : String} {ch : Nat}
    (hSelect : allowed (.selectTimer self.nodeInfo.keepAlive ch))
    (hTimer : (scaleDown self serviceID).Uses answers allowed) :
    (keepAliveAndScaleDown self serviceID ch).Uses answers allowed := by
  refine ⟨hSelect, fun ready _ => ?_⟩
  cases ready with
  | received => trivial
  | timer => exact hTimer

end Cluster
