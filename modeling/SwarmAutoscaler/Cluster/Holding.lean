import SwarmAutoscaler.Cluster.Footprint
import SwarmAutoscaler.Cluster.Request

/-! The copies of services that threads hold. Every update writes back a whole spec that
was read before; what a thread can write is determined by the copy it holds and by the
function of scale.go that it holds it in. -/
namespace Cluster

open Docker Process

/-- The cluster amid any environment. -/
def machineAmid {E : Type} (disturb : E → World → Option World) (nodes : Nodes) :
    Machine signature World Call Result E where
  body := body nodes
  again := (machine nodes).again
  forks := (machine nodes).forks
  exec := exec nodes
  meet := meet
  disturb := disturb

/-- The constraint that ties a service to its handler node. -/
def handlerConstraint (hostName : String) : String := "node.hostname==" ++ hostName

/-- The service after `updateServiceConstraints`, as `changeServiceReplicas` calls it: a
service of 2 replicas gets the constraint, a service of 1 replica loses it. -/
def constrained (service : Service) : Service :=
  match service.spec.labels.lookup "autoscaler.handlerNode", service.spec.taskTemplate.placement with
  | some hostName, some placement =>
      let constraints := if service.spec.replicas? = some 2 then [handlerConstraint hostName] else []
      { service with
        version := service.version + 1
        spec := service.spec.setPlacement { placement with constraints := constraints } }
  | _, _ => service

/-- The constraints that the code writes are those of `constrained`, at the two counts at
which it writes any. -/
theorem constrained_eq_update {service : Service} {add : Bool} {hostName : String} {placement : Placement}
    (hHost : service.spec.labels.lookup "autoscaler.handlerNode" = some hostName)
    (hPlaced : service.spec.taskTemplate.placement = some placement)
    (hReplicas : service.spec.replicas? = some (if add then 2 else 1)) :
    constrained service = { service with
      version := service.version + 1
      spec := service.spec.setPlacement { placement with
        constraints := if add then ["node.hostname==" ++ hostName]
          else if placement.constraints ≠ [] then [] else placement.constraints } } := by
  cases add with
  | true =>
      rw [if_pos rfl] at hReplicas
      simp only [constrained, hHost, hPlaced, hReplicas]
      rfl
  | false =>
      have hNone : (if placement.constraints ≠ [] then [] else placement.constraints) = [] := by
        split
        · rfl
        · next hNil => exact Decidable.not_not.mp hNil
      rw [if_neg Bool.false_ne_true] at hReplicas
      simp only [constrained, hHost, hPlaced, hReplicas, hNone]
      rfl

/-- The change of the constraints keeps the labels, and with them the label that decides
about it. -/
theorem labels_constrained {service : Service} : (constrained service).spec.labels = service.spec.labels := by
  unfold constrained
  split <;> rfl

/-- The change of the constraints keeps the count. -/
theorem replicas?_constrained {service : Service} :
    (constrained service).spec.replicas? = service.spec.replicas? := by
  unfold constrained
  split <;> rfl

/-- The copy of a service that a piece of code holds between its inspect and the update it
makes from it. -/
inductive Holding where
  /-- an inspect from here is one of `scaleTo` or of `getPublishedPort` -/
  | nothing
  /-- in `changeServiceReplicas`, before its inspect -/
  | entered
  /-- the copy of `changeServiceReplicas`, for `updateServiceConstraints` -/
  | changing (serviceID : String) (copy : Service)
  /-- `updateServiceConstraints` has written its copy -/
  | changed (serviceID : String) (before : Service)
  /-- the copy of `scaleTo`, which may come after a change of the constraints -/
  | scaling (before : Option Service) (serviceID : String) (copy : Service)

/-- The functions of scale.go that update a service. -/
inductive Writer where
  | scaleTo
  | updateServiceConstraints
  deriving DecidableEq, Repr

namespace Holding

/-- The function that an update comes from. -/
def writer : Holding → Option Writer
  | .changing _ _ => some .updateServiceConstraints
  | .scaling _ _ _ => some .scaleTo
  | _ => none

/-- The copy from which the thread has changed the constraints, while it has not
written the count that belongs to this change. -/
def before? : Holding → Option Service
  | .changed _ before => some before
  | .scaling before? _ _ => before?
  | _ => none

/-- The service the thread is at. -/
def serviceID? : Holding → Option String
  | .changing serviceID _ | .changed serviceID _ | .scaling _ serviceID _ => some serviceID
  | _ => none

/-- An inspect hands the code a copy and an update uses it up. After the constraints were
changed, the copy that they were changed from is kept until the count is written. -/
def advance (holding : Holding) (op : Op) : op.Answer → Holding :=
  match holding, op with
  | .entered, .serviceInspect serviceID => fun
      | .ok copy => .changing serviceID copy
      | .error _ => .nothing
  | .changed _ before, .serviceInspect serviceID => fun
      | .ok copy => .scaling (some before) serviceID copy
      | .error _ => .nothing
  | _, .serviceInspect serviceID => fun
      | .ok copy => .scaling none serviceID copy
      | .error _ => .nothing
  | .changing serviceID copy, .serviceUpdate _ _ _ => fun
      | .ok _ => .changed serviceID copy
      | .error _ => .nothing
  | _, .serviceUpdate _ _ _ => fun _ => .nothing
  | holding, .httpPost _ .scale => fun
      | .ok _ => .entered
      | .error _ => holding
  | _, .perfRead _ | _, .recover => fun _ => .nothing
  | holding, _ => fun _ => holding

/-- The updates a thread can make with what it holds. -/
def Writes (holding : Holding) (serviceID : String) (version : Nat) (spec : ServiceSpec) : Prop :=
  match holding with
  | .changing _ copy => serviceID = copy.id ∧ version = copy.version ∧ spec = (constrained copy).spec ∧
      (copy.spec.labels.lookup "autoscaler.handlerNode").isSome = true ∧
      copy.spec.taskTemplate.placement.isSome = true ∧
      (copy.spec.replicas? = some 1 ∨ copy.spec.replicas? = some 2)
  | .scaling before? id copy => serviceID = id ∧ version = copy.version ∧
      copy.spec.mode.replicated.isSome = true ∧ ∃ replicas, spec = copy.spec.setReplicas replicas ∧
        ∀ before ∈ before?, before.spec.replicas? = some 1 ∧ replicas = 2 ∨
          before.spec.replicas? = some 2 ∧ replicas = 1
  | _ => False

/-- Every update is made from the copy that is held, and nothing but the inspect of
`scaleTo` comes between a change of the constraints and the count that belongs to it. -/
def permits (holding : Holding) : Op → Prop
  | .serviceUpdate serviceID version spec => holding.Writes serviceID version spec
  | .serviceInspect serviceID => ∀ before ∈ holding.before?, holding = .changed serviceID before
  | .perfRead _ | .selectTimer _ _ | .httpPost _ .scale => holding.before? = none
  | _ => True

end Holding

/-- The code ends only when no count belongs to what it changed. -/
def holdingProtocol : Program.Protocol signature Holding Result where
  permits := Holding.permits
  advance := Holding.advance
  ends holding _ := holding.before? = none

/-- The holding of every thread. -/
def holdings : Tracking signature Call Holding Result where
  protocol _ := holdingProtocol
  initial
    | .request _ _ _ => .entered
    | _ => .nothing

/-- Operations that neither read nor write a service. -/
def Op.besides : Op → Bool
  | .serviceInspect _ | .serviceUpdate _ _ _ | .httpPost _ .scale | .perfRead _ | .selectTimer _ _
  | .nilDereference | .recover => false
  | _ => true

namespace Holding

/-- Outside `changeServiceReplicas`. -/
inductive Outside : Holding → Prop where
  | nothing : Outside .nothing
  | scaling (serviceID : String) (copy : Service) : Outside (.scaling none serviceID copy)

theorem Outside.before? {holding : Holding} (h : holding.Outside) : holding.before? = none := by
  cases h <;> rfl

variable {holding : Holding} {serviceID : String} {self : Instance}

/-- What does not touch services is permitted at any point. -/
theorem permits_of_besides {op : Op} (h : op.besides = true) : holding.permits op := by
  cases op with
  | httpPost ip endpoint => cases endpoint <;> trivial
  | _ => trivial

/-- What does not touch services leaves the held copy as it is. -/
theorem advance_of_besides {op : Op} {answer : op.Answer} (h : op.besides = true) :
    holding.advance op answer = holding := by
  cases holding <;> cases op <;> first | rfl | cases h | skip
  all_goals
    next endpoint => cases endpoint <;> first | rfl | cases h

theorem follows_besides {Value : Type} {program : Code Value} {rest : Value → Code Result}
    (hUses : program.Uses anyAnswer fun op : Op => op.besides = true)
    (hRest : ∀ value, (rest value).Follows holdingProtocol anyAnswer holding) :
    (program.bind rest).Follows holdingProtocol anyAnswer holding :=
  Program.follows_bind (Program.follows_of_uses (fun _ => Holding.permits_of_besides)
    (fun _ _ => Holding.advance_of_besides) hRest hUses)

/-- `scaleTo` from any holding in which its inspect gives it a copy to write the count in. -/
theorem follows_scaleTo {replicas : UInt64} (hInspect : holding.permits (.serviceInspect serviceID))
    (hError : ∀ err, (holding.advance (.serviceInspect serviceID) (.error err)).before? = none)
    (hCopy : ∀ copy, ∃ before?, holding.advance (.serviceInspect serviceID) (.ok copy) =
      .scaling before? serviceID copy ∧
      ∀ before ∈ before?, before.spec.replicas? = some 1 ∧ replicas = 2 ∨
        before.spec.replicas? = some 2 ∧ replicas = 1) :
    (scaleTo serviceID replicas).Follows holdingProtocol anyAnswer holding := by
  refine ⟨hInspect, fun answer _ => ?_⟩
  cases answer with
  | error err => exact hError err
  | ok copy =>
      obtain ⟨before?, hScaling, hBefore⟩ := hCopy copy
      have hAdvance : holdingProtocol.advance holding (.serviceInspect serviceID) (.ok copy) =
          .scaling before? serviceID copy := hScaling
      rw [hAdvance]
      dsimp only
      split
      · exact ⟨trivial, fun never => nomatch never⟩
      · next mode hMode =>
          refine ⟨⟨rfl, rfl, by rw [hMode]; rfl, replicas, rfl, hBefore⟩, fun answer _ => ?_⟩
          cases answer <;> rfl

/-- `scaleTo` from a point at which the constraints are not half changed. -/
theorem follows_scaleTo_outside (h : holding.Outside) (replicas : UInt64) :
    (scaleTo serviceID replicas).Follows holdingProtocol anyAnswer holding := by
  cases h with
  | nothing => exact follows_scaleTo nofun (fun _ => rfl) fun _ => ⟨none, rfl, nofun⟩
  | scaling => exact follows_scaleTo nofun (fun _ => rfl) fun _ => ⟨none, rfl, nofun⟩

theorem follows_scaleTo_changing {copy : Service} {replicas : UInt64} :
    (scaleTo serviceID replicas).Follows holdingProtocol anyAnswer (.changing serviceID copy) :=
  follows_scaleTo nofun (fun _ => rfl) fun _ => ⟨none, rfl, nofun⟩

/-- The count that belongs to the changed constraint is the one `scaleTo` writes. -/
theorem follows_scaleTo_changed {before : Service} {replicas : UInt64}
    (h : before.spec.replicas? = some 1 ∧ replicas = 2 ∨ before.spec.replicas? = some 2 ∧ replicas = 1) :
    (scaleTo serviceID replicas).Follows holdingProtocol anyAnswer (.changed serviceID before) := by
  have hInspect : (Holding.changed serviceID before).permits (.serviceInspect serviceID) := by
    intro other hOther
    cases hOther
    rfl
  refine follows_scaleTo hInspect (fun _ => rfl) fun _ => ⟨some before, rfl, fun other hOther => ?_⟩
  cases hOther
  exact h

theorem follows_cancelKeepAlive {replicas : UInt64}
    (h : (scaleTo serviceID replicas).Follows holdingProtocol anyAnswer holding) :
    (cancelKeepAlive self serviceID replicas).Follows holdingProtocol anyAnswer holding := by
  have stays {op : Op} {answer : op.Answer} (hBesides : op.besides = true) :
      holdingProtocol.advance holding op answer = holding := Holding.advance_of_besides hBesides
  refine ⟨trivial, fun found _ => ?_⟩
  rw [stays rfl]
  cases found with
  | none => exact h
  | some ch =>
      refine ⟨trivial, fun _ _ => ?_⟩
      rw [stays rfl]
      refine ⟨trivial, fun _ _ => ?_⟩
      rw [stays rfl]
      exact h

theorem follows_startKeepAlive {copy : Service} :
    (startKeepAlive self serviceID).Follows holdingProtocol anyAnswer (.changing serviceID copy) := by
  refine ⟨trivial, fun found _ => ?_⟩
  cases found with
  | true => rfl
  | false => exact ⟨trivial, fun _ _ => ⟨trivial, fun _ _ => ⟨trivial, fun _ _ => rfl⟩⟩⟩

/-- `updateServiceConstraints` at the boundary, and what follows when it has written or
when the service has no handler node. -/
theorem follows_updateServiceConstraints {copy : Service} {add : Bool} {rest : Result → Code Result}
    (hReplicas : copy.spec.replicas? = some (if add then 2 else 1))
    (hFailed : ∀ err holding, holding.before? = none →
      (rest (.error err)).Follows holdingProtocol anyAnswer holding)
    (hSkipped : (rest (.ok ())).Follows holdingProtocol anyAnswer (.changing serviceID copy))
    (hWritten : (rest (.ok ())).Follows holdingProtocol anyAnswer (.changed serviceID copy)) :
    ((updateServiceConstraints copy add).bind rest).Follows holdingProtocol anyAnswer
      (.changing serviceID copy) := by
  unfold updateServiceConstraints
  split
  · exact hSkipped
  · next hostName hLabel =>
      split
      · exact ⟨trivial, fun never => nomatch never⟩
      · next placement hPlacement =>
          have hBoundary : copy.spec.replicas? = some 1 ∨ copy.spec.replicas? = some 2 := by
            cases add with
            | true => exact Or.inr hReplicas
            | false => exact Or.inl hReplicas
          refine ⟨⟨rfl, rfl, ?_, by rw [hLabel]; rfl, by rw [hPlacement]; rfl, hBoundary⟩, fun answer _ => ?_⟩
          · rw [constrained_eq_update hLabel hPlacement hReplicas]
          · cases answer with
            | error err => exact hFailed err .nothing rfl
            | ok _ => exact hWritten

/-- "over" past its inspect, from the copy that the inspect has handed out. -/
theorem follows_changeOver {copy : Service} {replicas : UInt64} (hReplicas : copy.spec.replicas? = some replicas) :
    (changeOver self serviceID copy replicas).Follows holdingProtocol anyAnswer (.changing serviceID copy) := by
  unfold changeOver
  split
  · next hOne =>
      subst hOne
      exact follows_updateServiceConstraints hReplicas (fun _ _ h => h)
        (follows_cancelKeepAlive follows_scaleTo_changing)
        (follows_cancelKeepAlive (follows_scaleTo_changed (Or.inl ⟨hReplicas, rfl⟩)))
  · exact follows_cancelKeepAlive follows_scaleTo_changing

/-- "under" past its inspect, from the copy that the inspect has handed out. -/
theorem follows_changeUnder {copy : Service} {replicas : UInt64}
    (hReplicas : copy.spec.replicas? = some replicas) :
    (changeUnder self serviceID copy replicas).Follows holdingProtocol anyAnswer (.changing serviceID copy) := by
  unfold changeUnder
  split
  · dsimp only
    split
    · next hOne =>
        have hTwo := eq_two_of_sub_one hOne
        subst hTwo
        exact follows_updateServiceConstraints hReplicas (fun _ _ h => h) follows_scaleTo_changing
          (follows_scaleTo_changed (Or.inr ⟨hReplicas, hOne⟩))
    · exact follows_scaleTo_changing
  · exact follows_startKeepAlive

/-- A request holds at most one copy for each update that it makes. -/
theorem follows_changeServiceReplicas {direction : String} :
    (changeServiceReplicas self serviceID direction).Follows holdingProtocol anyAnswer .entered := by
  unfold changeServiceReplicas
  split
  · rfl
  · refine ⟨nofun, fun answer _ => ?_⟩
    cases answer with
    | error err => rfl
    | ok copy =>
        have hEntered : holdingProtocol.advance .entered (.serviceInspect serviceID) (.ok copy) =
            .changing serviceID copy := rfl
        rw [hEntered]
        dsimp only
        split
        · rfl
        · next replicas hReplicas =>
            split
            · exact follows_changeOver hReplicas
            · split
              · exact follows_changeUnder hReplicas
              · rfl

/-- A part that ends when no count belongs to what it changed. -/
theorem follows_part {Value : Type} {program : Code Result} {rest : Result → Code Value}
    {ends : Holding → Value → Prop} (h : program.Follows holdingProtocol anyAnswer holding)
    (hRest : ∀ holding value, holding.before? = none →
      (rest value).Follows ⟨Holding.permits, Holding.advance, ends⟩ anyAnswer holding) :
    (program.bind rest).Follows ⟨Holding.permits, Holding.advance, ends⟩ anyAnswer holding := by
  apply Program.follows_bind
  refine Program.Follows.embed id ?_ ?_ ?_ h
  · exact fun _ _ hPermits => hPermits
  · exact fun _ _ _ _ => rfl
  · exact fun holding value hEnds => hRest holding value hEnds

theorem follows_getPublishedPort {rest : Except String UInt32 → Code Result} (h : holding.Outside)
    (hRest : ∀ holding : Holding, holding.Outside →
      ∀ value, (rest value).Follows holdingProtocol anyAnswer holding) :
    ((getPublishedPort serviceID).bind rest).Follows holdingProtocol anyAnswer holding := by
  have hInspect : holding.permits (.serviceInspect serviceID) := by
    intro before hBefore
    rw [h.before?] at hBefore
    cases hBefore
  refine ⟨hInspect, fun answer _ => ?_⟩
  cases answer with
  | error err =>
      have hNothing : holdingProtocol.advance holding (.serviceInspect serviceID) (.error err) = .nothing := by
        cases h <;> rfl
      rw [hNothing]
      exact hRest .nothing .nothing _
  | ok copy =>
      have hScaling : holdingProtocol.advance holding (.serviceInspect serviceID) (.ok copy) =
          .scaling none serviceID copy := by
        cases h <;> rfl
      rw [hScaling]
      dsimp only
      split <;> exact hRest _ (.scaling serviceID copy) _

theorem besides_listenOnPort {ip : String} {port : UInt32} :
    (listenOnPort ip port serviceID).Uses anyAnswer fun op : Op => op.besides = true :=
  uses_listenOnPort rfl rfl

theorem besides_removePort {ip : String} {port : UInt32} :
    (removePort ip port).Uses anyAnswer fun op : Op => op.besides = true :=
  uses_removePort rfl rfl rfl

theorem follows_keepAliveAndScaleDown {ch : Nat} :
    (keepAliveAndScaleDown self serviceID ch).Follows holdingProtocol anyAnswer .nothing := by
  refine ⟨rfl, fun ready _ => ?_⟩
  cases ready with
  | received => rfl
  | timer =>
      refine ⟨trivial, fun found _ => ?_⟩
      cases found with
      | false => rfl
      | true =>
          refine follows_getPublishedPort .nothing fun holding h result => ?_
          cases result with
          | error err => exact h.before?
          | ok port =>
              refine follows_besides besides_listenOnPort fun result => ?_
              cases result with
              | error err => exact h.before?
              | ok _ =>
                  refine follows_besides
                    (uses_broadcast fun ip => uses_post rfl nofun fun _ => besides_listenOnPort) fun result => ?_
                  cases result with
                  | error err => exact h.before?
                  | ok _ =>
                      refine follows_part (follows_scaleTo_outside h 0) fun holding value hEnds => ?_
                      cases value with
                      | error err => exact hEnds
                      | ok _ =>
                          refine ⟨trivial, fun _ _ => ?_⟩
                          have hStays : holding.advance (.keepAliveOpsDelete self.ip serviceID) () = holding :=
                            Holding.advance_of_besides rfl
                          exact (congrArg Holding.before? hStays).trans hEnds

/-- A wake-up on the manager updates the service by `scaleTo` alone; a worker's is a
request. -/
theorem follows_scaleBackUp {nodes : Nodes} {ip : String} :
    (scaleBackUp nodes ip serviceID).Follows holdingProtocol anyAnswer .nothing := by
  unfold scaleBackUp
  split
  · exact follows_scaleTo_outside .nothing 1
  · refine ⟨rfl, fun answer _ => ?_⟩
    cases answer with
    | error err => rfl
    | ok _ =>
        refine Program.follows_attempt (fun holding op handler hTrap _ => ?_) ?_
        · obtain ⟨rfl, rfl⟩ := Op.trap_eq_some_iff.mp hTrap
          refine ⟨trivial, fun _ _ => ?_⟩
          cases holding <;> rfl
        · refine follows_part follows_changeServiceReplicas fun holding value hEnds => ?_
          cases value <;> exact hEnds

/-- An event loop starts every turn with nothing in hand. -/
theorem follows_listenForEvents {nodes : Nodes} {ip : String} (h : holding.before? = none) :
    (listenForEvents nodes ip).Follows holdingProtocol anyAnswer holding := by
  refine ⟨h, fun answer _ => ?_⟩
  have hNothing : holdingProtocol.advance holding (.perfRead ip) answer = .nothing := by cases holding <;> rfl
  rw [hNothing]
  cases answer with
  | error err => rfl
  | ok rawSample =>
      dsimp only
      split
      · refine ⟨trivial, fun found _ => ?_⟩
        cases found with
        | none => rfl
        | some id =>
            refine follows_besides besides_removePort fun _ => ?_
            refine follows_besides (uses_broadcast fun ip' => uses_post rfl nofun fun _ => besides_removePort)
              fun _ => ?_
            exact follows_scaleBackUp
      · rfl

end Holding

/-- The code of every thread keeps to what it holds. -/
theorem holdings_step {E : Type} {disturb : E → World → Option World} {nodes : Nodes} {s t : State}
    {action : Process.Action Call E} (hLogged : Machine.Logged s) (h : Machine.EachThread holdings.Tracked s)
    (hStep : (machineAmid disturb nodes).step s action = some t) : Machine.EachThread holdings.Tracked t := by
  refine holdings.tracked_step (machineAmid disturb nodes) (fun call => ?_) ?_ hLogged h hStep
  · cases call with
    | request ip serviceID direction => exact Holding.follows_changeServiceReplicas
    | keepAlive ip serviceID ch => exact Holding.follows_keepAliveAndScaleDown
    | listener ip => exact Holding.follows_listenForEvents rfl
  · intro call holding result program hEnds hAgain
    cases call with
    | listener ip =>
        cases hAgain
        exact Holding.follows_listenForEvents hEnds
    | request | keepAlive => cases hAgain

end Cluster
