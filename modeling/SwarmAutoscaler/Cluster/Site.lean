import SwarmAutoscaler.Cluster.Holding
import SwarmAutoscaler.Process.Sequential

/-! The code of the autoscaler when one operation of the cluster runs at a time. All that
is left of the other threads are the keep-alive goroutines that wait for their timer; a
send on the channel of one of them ends it. -/
namespace Cluster

open Docker Process

/-- A goroutine in the `select` of `keepAliveAndScaleDown`. -/
structure KeepAlive where
  ip : String
  serviceID : String
  ch : Nat
  deriving DecidableEq, Repr

/-- The world with the keep-alives whose goroutines wait in their `select`: what is left
between two calls that run one after the other. -/
structure Site where
  world : World
  waiting : List KeepAlive := []

namespace Site

/-- A goroutine waits on the channel. -/
def listens (site : Site) (ch : Nat) : Bool := site.waiting.any fun keepAlive => keepAlive.ch == ch

/-- The goroutine that waits on the channel takes the cancellation and ends. -/
def receive (site : Site) (ch : Nat) : Site :=
  { site with waiting := site.waiting.eraseP fun keepAlive => keepAlive.ch == ch }

/-- The site after Docker has stored a service. -/
def setService (site : Site) (serviceID : String) (service : Service) : Site :=
  { site with world := site.world.setService serviceID service }

/-- The site after a store or a delete in a keep-alive table. -/
def setKeepAlive (site : Site) (key : String × String) (ch : Option Nat) : Site :=
  { site with world := site.world.setKeepAlive key ch }

/-- The site when the goroutine of the entry has received and the entry is deleted; nothing
when no goroutine is there to receive. -/
def cancelled (site : Site) (key : String × String) : Option Site :=
  match site.world.keepAliveOps key with
  | none => some site
  | some ch => if site.listens ch then some ((site.receive ch).setKeepAlive key none) else none

/-- The site with a new entry and its goroutine. -/
def started (site : Site) (ip serviceID : String) (ch : Nat) : Site :=
  { world := site.world.setKeepAlive (ip, serviceID) (some ch)
    waiting := site.waiting ++ [⟨ip, serviceID, ch⟩] }

/-- An operation of a call that runs alone: a send on a channel needs a goroutine that waits
there, a started keep-alive waits, and all else is as in the machine. -/
def exec (nodes : Nodes) (thread : Nat) (op : Op) (fail : Bool) (site : Site) : Option (op.Answer × Site) :=
  match op with
  | .chanSend ch => if site.listens ch then some ((), site.receive ch) else none
  | .goKeepAlive ip serviceID ch => some ((), { site with waiting := site.waiting ++ [⟨ip, serviceID, ch⟩] })
  | op => (Cluster.exec nodes thread op fail site.world).map fun answered =>
      (answered.1, { site with world := answered.2 })

end Site

/-- Thread `thread` runs alone. -/
def solo (nodes : Nodes) (thread : Nat) : Solo signature Site where
  fallible op := (failure op).isSome
  exec := Site.exec nodes thread

section Eval

variable {nodes : Nodes} {thread : Nat} {fails : Nat → Bool} {calls : Nat} {site : Site} {Value : Type}
  {serviceID ip : String} {service : Service}

/-- An operation that cannot fail and has this answer. -/
theorem eval_answered {op : Op} {next : signature.Answer op → Code Value} {answer : signature.Answer op}
    {site' : Site}
    (hFree : failure op = none) (hExec : Site.exec nodes thread op false site = some (answer, site')) :
    (Program.perform op next : Code Value).eval (solo nodes thread) fails calls site =
      (next answer).eval (solo nodes thread) fails calls site' := by
  have hFallible : (solo nodes thread).fallible op = false := by simp [solo, hFree]
  have hAnswered : (solo nodes thread).exec op false site = some (answer, site') := hExec
  rw [Program.eval_perform hFallible, hAnswered]
  rfl

/-- An operation that does not return is the end of a call that runs alone. -/
theorem eval_blocked {op : Op} {next : signature.Answer op → Code Value}
    (hFree : failure op = none) (hExec : Site.exec nodes thread op false site = none) :
    (Program.perform op next : Code Value).eval (solo nodes thread) fails calls site = none := by
  have hFallible : (solo nodes thread).fallible op = false := by simp [solo, hFree]
  have hBlocked : (solo nodes thread).exec op false site = none := hExec
  rw [Program.eval_perform hFallible, hBlocked]
  rfl

/-- A panic is no outcome. -/
theorem eval_nilDereference : (nilDereference : Code Value).eval (solo nodes thread) fails calls site = none :=
  eval_blocked rfl rfl

/-- What Docker answers to `ServiceInspect`, if the call gets through. -/
def World.inspect (w : World) (serviceID : String) (fail : Bool) : Except String Service :=
  if fail then .error "Error response from daemon"
  else
    match w.services serviceID with
    | none => .error "Error: No such service"
    | some service => .ok service

/-- An inspect leaves the site as it is. -/
theorem eval_inspect {next : signature.Answer (.serviceInspect serviceID) → Code Value} :
    (Program.perform (.serviceInspect serviceID) next : Code Value).eval (solo nodes thread) fails calls site =
      (next (site.world.inspect serviceID (fails calls))).eval (solo nodes thread) fails (calls + 1) site := by
  rw [Program.eval_call rfl]
  cases hFails : fails calls with
  | true => rfl
  | false => cases hStored : site.world.services serviceID <;>
    simp [solo, Site.exec, exec, perform, World.inspect, hStored]

/-- An update under the version that Docker has. -/
theorem eval_update {spec : ServiceSpec}
    {next : signature.Answer (.serviceUpdate serviceID service.version spec) → Code Value}
    (hStored : site.world.services serviceID = some service) :
    (Program.perform (.serviceUpdate serviceID service.version spec) next : Code Value).eval (solo nodes thread)
        fails calls site =
      if fails calls then
        (next (.error "Error response from daemon")).eval (solo nodes thread) fails (calls + 1) site
      else
        (next (.ok ())).eval (solo nodes thread) fails (calls + 1)
          (site.setService serviceID { service with version := service.version + 1, spec := spec }) := by
  rw [Program.eval_call rfl]
  cases hFails : fails calls with
  | true => rfl
  | false => simp [solo, Site.exec, exec, perform, hStored, Site.setService]

/-- The delivery of a request. -/
theorem eval_post {endpoint : Endpoint} {next : signature.Answer (.httpPost ip endpoint) → Code Value} :
    (Program.perform (.httpPost ip endpoint) next : Code Value).eval (solo nodes thread) fails calls site =
      if nodes.serves ip endpoint = true ∧ fails calls = false then
        (next (.ok ())).eval (solo nodes thread) fails (calls + 1) site
      else (next (.error "connection refused")).eval (solo nodes thread) fails (calls + 1) site := by
  rw [Program.eval_call rfl]
  cases hFails : fails calls with
  | true =>
      rw [if_neg (by simp)]
      rfl
  | false => cases hServes : nodes.serves ip endpoint <;> simp [solo, Site.exec, exec, perform, hServes]

/-- A handler answers when its function has returned. -/
theorem eval_handle {Data : Type} {success : String} {action : Data → Code Result} {data : Data} :
    (handle success action ⟨"POST", .ok data⟩).eval (solo nodes thread) fails calls site =
      ((action data).eval (solo nodes thread) fails calls site).map fun outcome =>
        ⟨match outcome.result with
          | .error err => httpError err 500
          | .ok _ => ⟨200, success⟩, outcome.calls, outcome.state⟩ := by
  have hHandle : handle success action ⟨"POST", .ok data⟩ = (action data).bind fun
      | .error err => .done (httpError err 500)
      | .ok _ => .done ⟨200, success⟩ := rfl
  rw [hHandle, Program.eval_bind]
  cases (action data).eval (solo nodes thread) fails calls site with
  | none => rfl
  | some outcome => cases hResult : outcome.result <;> simp [hResult]

/-- The service with another count, as `scaleTo` stores it. -/
def scaled (service : Service) (replicas : UInt64) : Service :=
  { service with version := service.version + 1, spec := service.spec.setReplicas replicas }

/-- How `scaleTo` ends when it starts with call number `calls` and finds the service. -/
def scaleOutcome (fails : Nat → Bool) (calls : Nat) (site : Site) (serviceID : String) (service : Service)
    (replicas : UInt64) : Outcome Site Result :=
  if fails calls then ⟨.error "Error response from daemon", calls + 1, site⟩
  else if fails (calls + 1) then ⟨.error "Error response from daemon", calls + 2, site⟩
  else ⟨.ok (), calls + 2, site.setService serviceID (scaled service replicas)⟩

/-- `scaleTo` on a stored service in replicated mode always has an outcome. -/
theorem eval_scaleTo {replicas : UInt64} (hStored : site.world.services serviceID = some service)
    (hMode : service.spec.mode.replicated.isSome = true) :
    (scaleTo serviceID replicas).eval (solo nodes thread) fails calls site =
      some (scaleOutcome fails calls site serviceID service replicas) := by
  unfold scaleOutcome
  obtain ⟨mode, hReplicated⟩ := Option.isSome_iff_exists.mp hMode
  rw [scaleTo, eval_inspect]
  cases hInspect : fails calls with
  | true => rfl
  | false =>
      simp only [World.inspect, hStored, hReplicated, Bool.false_eq_true, ↓reduceIte]
      rw [eval_update hStored]
      cases fails (calls + 1) <;> rfl

/-- What a `scaleTo` that has returned can have done. -/
theorem scaleTo_of_eval {replicas : UInt64} {outcome : Outcome Site Result}
    (h : (scaleTo serviceID replicas).eval (solo nodes thread) fails calls site = some outcome) :
    (∃ service, site.world.services serviceID = some service ∧ fails calls = false ∧ fails (calls + 1) = false ∧
      outcome = ⟨.ok (), calls + 2, site.setService serviceID (scaled service replicas)⟩) ∨
    ((site.world.services serviceID ≠ none → fails calls = false → fails (calls + 1) = true) ∧
      outcome.state = site ∧ outcome.result ≠ .ok ()) := by
  rw [scaleTo, eval_inspect] at h
  cases hInspect : fails calls with
  | true =>
      simp only [World.inspect, hInspect, ↓reduceIte] at h
      cases h
      exact Or.inr ⟨nofun, rfl, nofun⟩
  | false =>
      cases hStored : site.world.services serviceID with
      | none =>
          simp only [World.inspect, hInspect, hStored, Bool.false_eq_true, ↓reduceIte] at h
          cases h
          exact Or.inr ⟨fun hSome => absurd rfl hSome, rfl, nofun⟩
      | some service =>
          simp only [World.inspect, hInspect, hStored, Bool.false_eq_true, ↓reduceIte] at h
          split at h
          · rw [eval_nilDereference] at h
            cases h
          · rw [eval_update hStored] at h
            cases hUpdate : fails (calls + 1) with
            | true =>
                simp only [hUpdate, ↓reduceIte] at h
                cases h
                exact Or.inr ⟨fun _ _ => rfl, rfl, nofun⟩
            | false =>
                simp only [hUpdate, Bool.false_eq_true, ↓reduceIte] at h
                cases h
                exact Or.inl ⟨service, rfl, rfl, rfl, rfl⟩

/-- A labelled service with a placement gets the one constraint, or loses all of them, and
keeps its count. -/
theorem eval_updateServiceConstraints {add : Bool} (hStored : site.world.services serviceID = some service)
    (hId : service.id = serviceID) (hReplicas : service.spec.replicas? = some (if add then 2 else 1))
    (hLabel : (service.spec.labels.lookup "autoscaler.handlerNode").isSome = true)
    (hPlacement : service.spec.taskTemplate.placement.isSome = true) :
    (updateServiceConstraints service add).eval (solo nodes thread) fails calls site = some
      (if fails calls then ⟨.error "Error response from daemon", calls + 1, site⟩
      else ⟨.ok (), calls + 1, site.setService serviceID (constrained service)⟩) := by
  obtain ⟨hostName, hHost⟩ := Option.isSome_iff_exists.mp hLabel
  obtain ⟨placement, hPlaced⟩ := Option.isSome_iff_exists.mp hPlacement
  subst hId
  simp only [updateServiceConstraints, hHost, hPlaced]
  refine (eval_update hStored).trans ?_
  rw [constrained_eq_update hHost hPlaced hReplicas]
  cases fails calls <;> rfl

/-- The pointer to the placement is followed without a test. -/
theorem eval_updateServiceConstraints_nil {add : Bool}
    (hLabel : (service.spec.labels.lookup "autoscaler.handlerNode").isSome = true)
    (hPlacement : service.spec.taskTemplate.placement = none) :
    (updateServiceConstraints service add).eval (solo nodes thread) fails calls site = none := by
  obtain ⟨hostName, hHost⟩ := Option.isSome_iff_exists.mp hLabel
  simp only [updateServiceConstraints, hHost, hPlacement]
  exact eval_nilDereference

/-- With an entry in the table, "over" returns only when somebody waits on the channel of
the entry. -/
theorem eval_cancelKeepAlive {self : Instance} {replicas : UInt64} :
    (cancelKeepAlive self serviceID replicas).eval (solo nodes thread) fails calls site =
      (site.cancelled (self.ip, serviceID)).bind
        ((scaleTo serviceID replicas).eval (solo nodes thread) fails calls) := by
  have hGet : Site.exec nodes thread (.keepAliveOpsGet self.ip serviceID) false site =
      some (site.world.keepAliveOps (self.ip, serviceID), site) := rfl
  rw [cancelKeepAlive, eval_answered rfl hGet]
  cases hFound : site.world.keepAliveOps (self.ip, serviceID) with
  | none => simp [Site.cancelled, hFound]
  | some ch =>
      dsimp only
      cases hListens : site.listens ch with
      | true =>
          have hSend : Site.exec nodes thread (.chanSend ch) false site = some ((), site.receive ch) := by
            simp only [Site.exec, hListens, ↓reduceIte]
            rfl
          rw [eval_answered rfl hSend, eval_answered rfl rfl]
          simp only [Site.cancelled, hFound, hListens, ↓reduceIte, Option.bind_some]
          rfl
      | false =>
          have hSend : Site.exec nodes thread (.chanSend ch) false site = none := by simp [Site.exec, hListens]
          rw [eval_blocked rfl hSend]
          simp [Site.cancelled, hFound, hListens]

/-- A second keep-alive is never started while there is an entry. -/
theorem eval_startKeepAlive {self : Instance} :
    (startKeepAlive self serviceID).eval (solo nodes thread) fails calls site = some
      ⟨.ok (), calls, if (site.world.keepAliveOps (self.ip, serviceID)).isSome then site
        else site.started self.ip serviceID thread⟩ := by
  have hHas : Site.exec nodes thread (.keepAliveOpsHas self.ip serviceID) false site =
      some ((site.world.keepAliveOps (self.ip, serviceID)).isSome, site) := rfl
  rw [startKeepAlive, eval_answered rfl hHas]
  cases hFound : (site.world.keepAliveOps (self.ip, serviceID)).isSome with
  | true => rfl
  | false => rfl

end Eval

end Cluster
