import SwarmAutoscaler.Cluster.Course
import SwarmAutoscaler.Cluster.Listening
import SwarmAutoscaler.Cluster.Timer

/-! What a wake-up does when it runs alone. It forgets the port on its own node and on the
others in order, up to the first that is not reached, and only then asks for a replica. -/
namespace Cluster

open Docker Process

/-- `removePort` -/
def Site.forget (site : Site) (port : UInt32) (ip : String) : Site :=
  match site.world.portToServiceID (ip, port) with
  | none => site
  | some _ => { site with world := (site.world.setPortToServiceID (ip, port) none).setPortsMap (ip, port) none }

/-- The site after each of these nodes has taken the port out of its tables, one after the
other. -/
def Site.forgetAll (site : Site) (port : UInt32) (ips : List String) : Site :=
  ips.foldl (fun site ip => site.forget port ip) site

/-- The nodes that get the remove request, when call number `calls` delivers the first one. -/
def reached (nodes : Nodes) (fails : Nat → Bool) : Nat → List SwarmNode → List String
  | _, [] => []
  | calls, node :: rest =>
      if nodes.serves node.ip .remove = true ∧ fails calls = false then
        node.ip :: reached nodes fails (calls + 1) rest
      else []

/-- The number of the first call after the remove requests; no request is sent after one
that failed. -/
def afterRemoval (nodes : Nodes) (fails : Nat → Bool) (calls : Nat) (others : List SwarmNode) : Nat :=
  calls + min ((reached nodes fails calls others).length + 1) others.length

/-- The address that a worker sends its scale request to. -/
def managerAddress (others : List SwarmNode) : String :=
  match getManagerNode others with
  | .ok node => node.ip
  | .error _ => ""

/-- All that the last part of a wake-up can do when it starts with call number `calls`: the
call of `scaleTo` on a manager, the request of a worker. -/
inductive Rises (nodes : Nodes) (ip serviceID : String) (thread : Nat) (fails : Nat → Bool) (calls : Nat)
    (before : Site) : Site → Prop where
  | scaled {service : Service} (manager : (nodes.info ip).autoscalerManager = true)
      (stored : before.world.services serviceID = some service) (inspect : fails calls = false)
      (update : fails (calls + 1) = false) :
      Rises nodes ip serviceID thread fails calls before (before.setService serviceID (scaled service 1))
  | failed (manager : (nodes.info ip).autoscalerManager = true)
      (broken : before.world.services serviceID ≠ none → fails calls = false → fails (calls + 1) = true) :
      Rises nodes ip serviceID thread fails calls before before
  | unheard (worker : (nodes.info ip).autoscalerManager = false)
      (lost : ¬ (nodes.serves (managerAddress (nodes.info ip).otherNodes) .scale = true ∧ fails calls = false)) :
      Rises nodes ip serviceID thread fails calls before before
  | asked {outcome : Outcome Site Result} (worker : (nodes.info ip).autoscalerManager = false)
      (serves : nodes.serves (managerAddress (nodes.info ip).otherNodes) .scale = true)
      (delivered : fails calls = false)
      (course : Course nodes (managerAddress (nodes.info ip).otherNodes) serviceID "over" thread
        (fun call => fails (call + (calls + 1))) before outcome) :
      Rises nodes ip serviceID thread fails calls before outcome.state

section Eval

variable {nodes : Nodes} {serviceID ip : String} {port : UInt32} {thread calls : Nat} {fails : Nat → Bool}
  {site : Site} {others : List SwarmNode} {outcome : Outcome Site Result}

/-- The first four bytes of the classifier's event are the port. -/
theorem littleEndianUint32_longBytes (port : UInt32) :
    littleEndianUint32 ((longBytes port.toNat).take 4) = port := by
  rw [longBytes_eq, @ByteOrder.take_littleEndian 4 4 port.toNat, littleEndianUint32_eq,
    ByteOrder.get_put port.toNat_lt, UInt32.ofNat_toNat]

theorem eval_removePort : ∃ result,
    (removePort ip port).eval (solo nodes thread) fails calls site =
      some ⟨result, calls, site.forget port ip⟩ := by
  have hLoad : Site.exec nodes thread (.portToServiceIDLoad ip port) false site =
      some (site.world.portToServiceID (ip, port), site) := rfl
  rw [removePort, eval_answered rfl hLoad]
  unfold Site.forget
  cases site.world.portToServiceID (ip, port) with
  | none => exact ⟨_, rfl⟩
  | some _ =>
      dsimp only
      rw [eval_answered rfl rfl, Program.eval_perform rfl]
      cases hMapped : site.world.portsMap (ip, port) with
      | none =>
          have hSame : site.world.portsMap = Function.update site.world.portsMap (ip, port) none := by
            rw [← hMapped, Function.update_eq_self]
          simp only [solo, Site.exec, exec, perform, hMapped, World.setPortsMap, World.setPortToServiceID_portsMap,
            ← hSame]
          exact ⟨_, rfl⟩
      | some value => simp [solo, Site.exec, exec, perform, hMapped]

theorem eval_sendRemoveRequest :
    (sendRemoveRequest (removePort ip) port ip).eval (solo nodes thread) fails calls site = some
      (if nodes.serves ip .remove = true ∧ fails calls = false then ⟨.ok (), calls + 1, site.forget port ip⟩
      else ⟨.error "error sending remove request to manager node: connection refused", calls + 1, site⟩) := by
  rw [sendRemoveRequest_eq, eval_post]
  split
  · obtain ⟨result, hRemove⟩ := @eval_removePort nodes ip port thread (calls + 1) fails site
    dsimp only
    rw [Program.eval_bind, hRemove]
    rfl
  · rfl

theorem eval_sendRemoveRequestToAllNodes {info : SwarmNodeInfo} : ∃ result,
    (sendRemoveRequestToAllNodes removePort info port).eval (solo nodes thread) fails calls site = some
      ⟨result, afterRemoval nodes fails calls info.otherNodes,
        site.forgetAll port (reached nodes fails calls info.otherNodes)⟩ := by
  unfold sendRemoveRequestToAllNodes afterRemoval
  generalize info.otherNodes = others
  induction others generalizing calls site with
  | nil => exact ⟨_, rfl⟩
  | cons node rest ih =>
      rw [broadcast, Program.eval_bind, eval_sendRemoveRequest, reached]
      split
      · obtain ⟨result, hRest⟩ := @ih (calls + 1) (site.forget port node.ip)
        have hCalls : calls + min ((node.ip :: reached nodes fails (calls + 1) rest).length + 1)
          (node :: rest).length =
            calls + 1 + min ((reached nodes fails (calls + 1) rest).length + 1) rest.length := by
          simp only [List.length_cons]
          omega
        rw [hCalls]
        exact ⟨result, hRest⟩
      · have hCalls : calls + min (([] : List String).length + 1) (node :: rest).length = calls + 1 := by
          simp only [List.length_nil, List.length_cons]
          omega
        rw [hCalls]
        exact ⟨_, rfl⟩

theorem kept_forget : Kept site (site.forget port ip) := by
  unfold Site.forget
  split
  · exact .refl site
  · exact ⟨rfl, rfl, rfl⟩

theorem kept_forgetAll {ips : List String} : Kept site (site.forgetAll port ips) := by
  induction ips generalizing site with
  | nil => exact .refl site
  | cons ip rest ih => exact kept_forget.trans ih

/-- A node forgets the port, the others do not. -/
theorem listening_forget {other : String} : Listening (site.forget port ip).world port other ↔
    other ≠ ip ∧ Listening site.world port other := by
  unfold Site.forget Listening
  by_cases hSame : other = ip
  · subst hSame
    cases hStored : site.world.portToServiceID (other, port) with
    | none => simp [hStored]
    | some _ => simp
  · have hApart : (other, port) ≠ (ip, port) := fun h => hSame (congrArg Prod.fst h)
    cases site.world.portToServiceID (ip, port) with
    | none => simp [hSame]
    | some _ => simp [hSame]

theorem listening_forgetAll {ips : List String} {other : String} :
    Listening (site.forgetAll port ips).world port other ↔ other ∉ ips ∧ Listening site.world port other := by
  induction ips generalizing site with
  | nil => simp [Site.forgetAll]
  | cons ip rest ih =>
      have hForgetAll : site.forgetAll port (ip :: rest) = (site.forget port ip).forgetAll port rest := rfl
      rw [hForgetAll, ih, listening_forget, List.mem_cons, not_or]
      tauto

/-- Only an update can take the count from a service. -/
theorem counted_of_exec {op : Op} {fail : Bool} {answer : op.Answer} {site' : Site}
    (hCounted : ∀ service ∈ site.world.services serviceID, service.spec.replicas?.isSome = true)
    (hSpec : ∀ id version spec, op = .serviceUpdate id version spec → spec.replicas?.isSome = true)
    (h : (solo nodes thread).exec op fail site = some (answer, site')) :
    ∀ service ∈ site'.world.services serviceID, service.spec.replicas?.isSome = true := by
  have hEffect {w : World} (hEffect : Effect site.world op answer w) :
      ∀ service ∈ w.services serviceID, service.spec.replicas?.isSome = true := by
    cases hEffect with
    | update stored current =>
        intro service hService
        rw [World.setService_services, Function.update_apply] at hService
        split at hService
        · cases hService
          exact hSpec _ _ _ rfl
        · exact hCounted service hService
    | _ => exact hCounted
  simp only [solo] at h
  unfold Site.exec at h
  split at h
  · split at h <;> cases h
    exact hCounted
  · cases h
    exact hCounted
  · obtain ⟨answered, hExec, h⟩ := Option.map_eq_some_iff.mp h
    cases h
    exact hEffect (effect_of_exec hExec)

/-- An inspect answers with what is stored. -/
theorem stored_of_inspect {fail : Bool} {service : Service} {site' : Site}
    (h : (solo nodes thread).exec (.serviceInspect serviceID) fail site = some (.ok service, site')) :
    site.world.services serviceID = some service ∧ site' = site := by
  obtain ⟨answered, hExec, hSame⟩ := Option.map_eq_some_iff.mp h
  cases fail with
  | true =>
      cases hExec
      cases hSame
  | false =>
      simp only [exec, perform, Bool.false_eq_true, ↓reduceIte] at hExec
      split at hExec
      · cases hExec
        cases hSame
      · next hStored =>
          cases hExec
          cases hSame
          exact ⟨hStored, rfl⟩

/-- `scaleTo` follows a nil pointer only where the service has no count. -/
theorem unfaulted_scaleTo {replicas : UInt64}
    (hCounted : ∀ service ∈ site.world.services serviceID, service.spec.replicas?.isSome = true) :
    (scaleTo serviceID replicas).Unfaulted Op.trap (solo nodes thread) fails calls site := by
  refine Program.unfaulted_perform rfl fun fail calls answer site' hInspect => ?_
  cases answer with
  | error err => exact Program.unfaulted_done _
  | ok service =>
      obtain ⟨count, hCount⟩ := Option.isSome_iff_exists.mp (hCounted service (stored_of_inspect hInspect).1)
      obtain ⟨mode, hMode⟩ := Option.isSome_iff_exists.mp (mode_of_replicas? hCount)
      simp only [hMode]
      refine Program.unfaulted_perform rfl fun fail calls answer site' _ => ?_
      cases answer <;> exact Program.unfaulted_done _

theorem unfaulted_cancelKeepAlive {self : Instance} {replicas : UInt64}
    (hCounted : ∀ service ∈ site.world.services serviceID, service.spec.replicas?.isSome = true) :
    (cancelKeepAlive self serviceID replicas).Unfaulted Op.trap (solo nodes thread) fails calls site := by
  refine Program.unfaulted_perform rfl fun fail calls found site' hGet => ?_
  have hCounted := counted_of_exec hCounted (by nofun) hGet
  cases found with
  | none => exact unfaulted_scaleTo hCounted
  | some ch =>
      refine Program.unfaulted_perform rfl fun fail calls answer site' hSend => ?_
      have hCounted := counted_of_exec hCounted (by nofun) hSend
      refine Program.unfaulted_perform rfl fun fail calls answer site' hDelete => ?_
      exact unfaulted_scaleTo (counted_of_exec hCounted (by nofun) hDelete)

/-- "over" follows a nil pointer only for a service at 1 replica with a handler node but
without a placement. -/
theorem unfaulted_over {self : Instance}
    (hPlaced : ∀ service ∈ site.world.services serviceID, constrains service "over" = true →
      service.spec.taskTemplate.placement.isSome = true) :
    (changeServiceReplicas self serviceID "over").Unfaulted Op.trap (solo nodes thread) fails calls site := by
  unfold changeServiceReplicas
  split
  · exact Program.unfaulted_done _
  · refine Program.unfaulted_perform rfl fun fail calls answer site' hInspect => ?_
    cases answer with
    | error err => exact Program.unfaulted_done _
    | ok service =>
        obtain ⟨hStored, rfl⟩ := stored_of_inspect hInspect
        cases hReplicas : service.spec.replicas? with
        | none =>
            simp only [hReplicas]
            exact Program.unfaulted_done _
        | some replicas =>
            have hCounted : ∀ service ∈ site'.world.services serviceID, service.spec.replicas?.isSome = true := by
              intro other hOther
              cases hStored.symm.trans hOther
              rw [hReplicas]
              rfl
            simp only [hReplicas, ↓reduceIte]
            unfold changeOver
            split
            · next hOne =>
                unfold updateServiceConstraints
                cases hLabel : service.spec.labels.lookup "autoscaler.handlerNode" with
                | none => exact unfaulted_cancelKeepAlive hCounted
                | some hostName =>
                    obtain ⟨placement, hPlacement⟩ := Option.isSome_iff_exists.mp
                      (hPlaced service hStored (by simp [constrains, hLabel, hReplicas, hOne]))
                    simp only [hPlacement]
                    refine Program.unfaulted_perform rfl fun fail calls answer site' hUpdate => ?_
                    cases answer with
                    | error err => exact Program.unfaulted_done _
                    | ok _ =>
                        refine unfaulted_cancelKeepAlive (counted_of_exec hCounted (fun _ _ _ hOp => ?_) hUpdate)
                        cases hOp
                        rw [ServiceSpec.replicas?_setPlacement, hReplicas]
                        rfl
            · exact unfaulted_cancelKeepAlive hCounted

/-- The handler adds no fault to its function. -/
theorem unfaulted_handle {Data : Type} {success : String} {action : Data → Code Result} {data : Data}
    (h : (action data).Unfaulted Op.trap (solo nodes thread) fails calls site) :
    (handle success action ⟨"POST", .ok data⟩).Unfaulted Op.trap (solo nodes thread) fails calls site := by
  simp only [handle, ne_eq, not_true_eq_false, ↓reduceIte]
  refine Program.unfaulted_bind h fun result _ _ => ?_
  cases result <;> exact Program.unfaulted_done _

/-- A worker whose request is delivered waits for the manager, and does not learn what the
manager has made of it. -/
theorem eval_sendScaleRequest {self : Instance} {managerIP : String}
    (hPlaced : ∀ service ∈ site.world.services serviceID, constrains service "over" = true →
      service.spec.taskTemplate.placement.isSome = true) :
    (sendScaleRequest (changeServiceReplicas self) serviceID "over" managerIP).eval (solo nodes thread) fails calls
        site =
      if nodes.serves managerIP .scale = true ∧ fails calls = false then
        ((changeServiceReplicas self serviceID "over").eval (solo nodes thread) fails (calls + 1) site).map
          fun asked => ⟨.ok (), asked.calls, asked.state⟩
      else some
        ⟨.error "error sending scale request to manager node: connection refused", calls + 1, site⟩ := by
  rw [sendScaleRequest, post, eval_post]
  split
  · have hUnfaulted : (createScalerHandler (changeServiceReplicas self)
        ⟨"POST", .ok (serviceID, "over")⟩).Unfaulted Op.trap (solo nodes thread) fails (calls + 1) site :=
      unfaulted_handle (unfaulted_over hPlaced)
    dsimp only
    rw [Program.eval_bind, hUnfaulted, createScalerHandler, eval_handle, Option.map_map, Option.bind_map]
    exact Option.map_eq_bind.symm
  · rfl

theorem rises_of_eval
    (hId : ∀ service ∈ site.world.services serviceID, constrains service "over" = true → service.id = serviceID)
    (hPlaced : ∀ service ∈ site.world.services serviceID, constrains service "over" = true →
      service.spec.taskTemplate.placement.isSome = true)
    (h : (scaleBackUp nodes ip serviceID).eval (solo nodes thread) fails calls site = some outcome) :
    Rises nodes ip serviceID thread fails calls site outcome.state := by
  unfold scaleBackUp at h
  split at h
  · next hManager =>
      rcases scaleTo_of_eval h with ⟨service, hStored, hInspect, hUpdate, rfl⟩ | ⟨hBroken, hSame, _⟩
      · exact .scaled hManager hStored hInspect hUpdate
      · rw [hSame]
        exact .failed hManager hBroken
  · next hWorker =>
      have hWorker : (nodes.info ip).autoscalerManager = false := by simpa using hWorker
      have hSend : (sendScaleRequest (changeServiceReplicas ⟨managerAddress (nodes.info ip).otherNodes,
          nodes.info (managerAddress (nodes.info ip).otherNodes)⟩) serviceID "over"
          (managerAddress (nodes.info ip).otherNodes)).eval (solo nodes thread) fails calls site =
            some outcome := h
      rw [eval_sendScaleRequest hPlaced] at hSend
      split at hSend
      · next hHeard =>
          rw [← Nat.zero_add (calls + 1), Program.eval_shift] at hSend
          obtain ⟨shifted, hShifted, rfl⟩ := Option.map_eq_some_iff.mp hSend
          obtain ⟨asked, hAsked, rfl⟩ := Option.map_eq_some_iff.mp hShifted
          have hCourse := course_of_eval hId hAsked
          have hRises : Rises nodes ip serviceID thread fails calls site asked.state :=
            .asked hWorker hHeard.1 hHeard.2 hCourse
          exact hRises
      · next hLost =>
          cases hSend
          exact .unheard hWorker hLost

theorem eval_wakeUp : (wakeUp nodes ip port serviceID).eval (solo nodes thread) fails calls site =
    (scaleBackUp nodes ip serviceID).eval (solo nodes thread) fails
      (afterRemoval nodes fails calls (nodes.info ip).otherNodes)
      (site.forgetAll port (ip :: reached nodes fails calls (nodes.info ip).otherNodes)) := by
  obtain ⟨removed, hRemove⟩ := @eval_removePort nodes ip port thread calls fails site
  obtain ⟨sent, hSend⟩ := @eval_sendRemoveRequestToAllNodes nodes port thread calls fails (site.forget port ip)
    (nodes.info ip)
  rw [wakeUp, Program.eval_bind, hRemove, Option.bind_some, Program.eval_bind, hSend]
  rfl

/-- A turn of the event loop for a packet to the port. -/
theorem eval_listenForEvents {samples : List (List UInt8)}
    (hQueue : site.world.perf ip = longBytes port.toNat :: samples)
    (hKnown : site.world.portToServiceID (ip, port) = some serviceID) (hRead : fails calls = false) :
    (listenForEvents nodes ip).eval (solo nodes thread) fails calls site =
      (wakeUp nodes ip port serviceID).eval (solo nodes thread) fails (calls + 1)
        { site with world := site.world.setPerf ip samples } := by
  have hPort : littleEndianUint32 ((longBytes port.toNat).take 4) = port := littleEndianUint32_longBytes port
  have hSample : (solo nodes thread).exec (.perfRead ip) false site =
      some (.ok (longBytes port.toNat), { site with world := site.world.setPerf ip samples }) := by
    simp [solo, Site.exec, exec, perform, hQueue]
  have hLoad : Site.exec nodes thread (.portToServiceIDLoad ip port) false
      { site with world := site.world.setPerf ip samples } =
      some (some serviceID, { site with world := site.world.setPerf ip samples }) := by
    rw [← hKnown]
    rfl
  rw [listenForEvents, Program.eval_call rfl, hRead, hSample]
  simp only [Option.bind_some]
  rw [if_pos (by simp [longBytes]), hPort, eval_answered rfl hLoad]

end Eval

end Cluster
