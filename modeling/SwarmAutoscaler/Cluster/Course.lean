import SwarmAutoscaler.Cluster.Site

/-! What a scale request does when it runs alone: it is refused before it has changed
anything, it starts a keep-alive, or it prepares the service and the keep-alive table and
comes to its count. -/
namespace Cluster

open Docker Process

/-- The request updates the constraints: it is at the boundary of 1 and 2 replicas and the
service has a handler node. -/
def constrains (service : Service) (direction : String) : Bool :=
  (service.spec.labels.lookup "autoscaler.handlerNode").isSome &&
    decide (direction = "over" ∧ service.spec.replicas? = some 1 ∨
      direction = "under" ∧ service.spec.replicas? = some 2)

theorem constrains_iff {service : Service} {direction : String} : constrains service direction = true ↔
    (service.spec.labels.lookup "autoscaler.handlerNode").isSome = true ∧
      (direction = "over" ∧ service.spec.replicas? = some 1 ∨
        direction = "under" ∧ service.spec.replicas? = some 2) := by
  simp [constrains]

/-- The site when the constraints are as the new count needs them. -/
def Site.constrain (site : Site) (serviceID direction : String) (service : Service) : Site :=
  if constrains service direction then site.setService serviceID (constrained service) else site

/-- The service as `scaleTo` finds it. -/
def readied (service : Service) (direction : String) : Service :=
  if constrains service direction then constrained service else service

/-- The constraint list of a service, when its placement is set. -/
def listed (service : Service) : Option (List String) :=
  service.spec.taskTemplate.placement.map Placement.constraints

/-- How the request prepares its count `target`. -/
inductive Prepares (key : String × String) (before : Site) (service : Service) (replicas : UInt64) :
    String → UInt64 → Site → Prop where
  | over {mid : Site} (cancelled : (before.constrain key.2 "over" service).cancelled key = some mid) :
      Prepares key before service replicas "over" (replicas + 1) mid
  | under (many : replicas > 1) :
      Prepares key before service replicas "under" (replicas - 1) (before.constrain key.2 "under" service)

/-- The request gives up before it has changed anything. -/
inductive Refuses (info : SwarmNodeInfo) (serviceID direction : String) (fails : Nat → Bool) (before : Site) :
    Prop where
  | worker (h : info.autoscalerManager = false)
  | unread (h : fails 0 = true)
  | unknown (h : before.world.services serviceID = none)
  | unscalable {service : Service} (stored : before.world.services serviceID = some service)
      (h : service.spec.replicas? = none)
  | undirected (hOver : direction ≠ "over") (hUnder : direction ≠ "under")
  | unwritten {service : Service} (stored : before.world.services serviceID = some service)
      (h : constrains service direction = true) (fails : fails 1 = true)

/-- The number of the first call of `scaleTo`. -/
def firstOfScaleTo (service : Service) (direction : String) : Nat := if constrains service direction then 2 else 1

/-- All that a request can do when it runs alone. -/
inductive Course (nodes : Nodes) (ip serviceID direction : String) (thread : Nat) (fails : Nat → Bool)
    (before : Site) : Outcome Site Result → Prop where
  | refused {err : String} {calls : Nat} (early : Refuses (nodes.info ip) serviceID direction fails before) :
      Course nodes ip serviceID direction thread fails before ⟨.error err, calls, before⟩
  | kept {service : Service} {replicas : UInt64} (stored : before.world.services serviceID = some service)
      (count : service.spec.replicas? = some replicas) (few : ¬ replicas > 1) (under : direction = "under") :
      Course nodes ip serviceID direction thread fails before
        ⟨.ok (), 1, if (before.world.keepAliveOps (ip, serviceID)).isSome then before
          else before.started ip serviceID thread⟩
  | counted {service : Service} {replicas target : UInt64} {mid : Site}
      (manager : (nodes.info ip).autoscalerManager = true)
      (stored : before.world.services serviceID = some service)
      (count : service.spec.replicas? = some replicas) (read : fails 0 = false)
      (written : constrains service direction = true →
        fails 1 = false ∧ service.spec.taskTemplate.placement.isSome = true)
      (prepares : Prepares (ip, serviceID) before service replicas direction target mid) :
      Course nodes ip serviceID direction thread fails before
        (scaleOutcome fails (firstOfScaleTo service direction) mid serviceID (readied service direction) target)

section Eval

variable {nodes : Nodes} {ip serviceID direction : String} {thread : Nat} {fails : Nat → Bool} {before : Site}
  {service : Service} {replicas : UInt64} {outcome : Outcome Site Result}

/-- The constraint update at the head of both branches. -/
theorem constrain_of_eval (add : Bool) {boundary : Prop} [Decidable boundary] {rest : Result → Code Result}
    (hStored : before.world.services serviceID = some service)
    (hId : constrains service direction = true → service.id = serviceID)
    (hBoundary : boundary → service.spec.replicas? = some (if add then 2 else 1))
    (hConstrains : constrains service direction =
      ((service.spec.labels.lookup "autoscaler.handlerNode").isSome && decide boundary))
    (h : ((if boundary then updateServiceConstraints service add else .done (.ok ())).bind rest).eval
      (solo nodes thread) fails 1 before = some outcome) :
    (constrains service direction = true ∧ fails 1 = true ∧
      (rest (.error "Error response from daemon")).eval (solo nodes thread) fails 2 before = some outcome) ∨
    ((constrains service direction = true → fails 1 = false ∧ service.spec.taskTemplate.placement.isSome = true) ∧
      (rest (.ok ())).eval (solo nodes thread) fails (firstOfScaleTo service direction)
        (before.constrain serviceID direction service) = some outcome) := by
  unfold firstOfScaleTo Site.constrain
  rw [hConstrains] at hId ⊢
  by_cases hAt : boundary
  · have hReplicas := hBoundary hAt
    rw [if_pos hAt] at h
    simp only [hAt, decide_true, Bool.and_true] at hId ⊢
    cases hLabel : (service.spec.labels.lookup "autoscaler.handlerNode").isSome with
    | false =>
        have hNone : service.spec.labels.lookup "autoscaler.handlerNode" = none := by simpa using hLabel
        simp only [updateServiceConstraints, hNone] at h
        exact Or.inr ⟨fun hTrue => absurd hTrue Bool.false_ne_true, h⟩
    | true =>
        rw [Program.eval_bind] at h
        cases hPlacement : service.spec.taskTemplate.placement.isSome with
        | false =>
            have hNone : service.spec.taskTemplate.placement = none := by simpa using hPlacement
            rw [eval_updateServiceConstraints_nil hLabel hNone] at h
            cases h
        | true =>
            rw [eval_updateServiceConstraints hStored (hId hLabel) hReplicas hLabel hPlacement] at h
            cases hFails : fails 1 with
            | true =>
                simp only [hFails, ↓reduceIte] at h
                exact Or.inl ⟨rfl, rfl, h⟩
            | false =>
                simp only [hFails, Bool.false_eq_true, ↓reduceIte] at h
                exact Or.inr ⟨fun _ => ⟨rfl, rfl⟩, h⟩
  · rw [if_neg hAt] at h
    simp only [hAt, decide_false, Bool.and_false]
    exact Or.inr ⟨fun hTrue => absurd hTrue Bool.false_ne_true, h⟩

/-- A request that asks a manager for a known direction of a service with a count is only
refused when a call fails. -/
theorem Refuses.broken {info : SwarmNodeInfo} (h : Refuses info serviceID direction fails before)
    (hManager : info.autoscalerManager = true) (hStored : before.world.services serviceID = some service)
    (hCount : service.spec.replicas? = some replicas) (hDirected : direction = "over" ∨ direction = "under") :
    fails 0 = true ∨ constrains service direction = true ∧ fails 1 = true := by
  cases h with
  | worker hWorker => simp [hManager] at hWorker
  | unread hFails => exact Or.inl hFails
  | unknown hNone => simp [hStored] at hNone
  | unscalable hOther hNone =>
      cases hStored.symm.trans hOther
      simp [hCount] at hNone
  | undirected hOver hUnder => exact (hDirected.elim hOver hUnder).elim
  | unwritten hOther hConstrains hFails =>
      cases hStored.symm.trans hOther
      exact Or.inr ⟨hConstrains, hFails⟩

theorem sub_one_eq_one_iff : replicas - 1 = 1 ↔ replicas = 2 := by
  constructor
  · exact eq_two_of_sub_one
  · rintro rfl
    rfl

theorem mode_of_replicas? {spec : ServiceSpec} (h : spec.replicas? = some replicas) :
    spec.mode.replicated.isSome = true := by
  obtain ⟨mode, hMode, _⟩ := Option.bind_eq_some_iff.mp h
  rw [hMode]
  rfl

theorem replicas?_readied : (readied service direction).spec.replicas? = service.spec.replicas? := by
  unfold readied
  split
  · exact replicas?_constrained
  · rfl

theorem id_readied : (readied service direction).id = service.id := by
  unfold readied constrained
  split
  · split <;> rfl
  · rfl

theorem stored_constrain (hStored : before.world.services serviceID = some service) :
    (before.constrain serviceID direction service).world.services serviceID =
      some (readied service direction) := by
  unfold Site.constrain readied
  split
  · exact Function.update_self ..
  · exact hStored

theorem constrain_frame : (before.constrain serviceID direction service).world.keepAliveOps =
      before.world.keepAliveOps ∧
    (before.constrain serviceID direction service).waiting = before.waiting := by
  unfold Site.constrain
  split <;> exact ⟨rfl, rfl⟩

/-- A keep-alive that is cancelled, if there is one. -/
theorem cancelled_cases {site mid : Site} {key : String × String} (h : site.cancelled key = some mid) :
    (site.world.keepAliveOps key = none ∧ mid = site) ∨
      ∃ ch, site.world.keepAliveOps key = some ch ∧ site.listens ch = true ∧
        mid = (site.receive ch).setKeepAlive key none := by
  unfold Site.cancelled at h
  split at h
  · next hNone =>
      cases h
      exact Or.inl ⟨hNone, rfl⟩
  · next ch hFound =>
      split at h
      · next hListens =>
          cases h
          exact Or.inr ⟨ch, hFound, hListens, rfl⟩
      · cases h

theorem Prepares.directed {key : String × String} {target : UInt64} {mid : Site}
    (h : Prepares key before service replicas direction target mid) :
    direction = "over" ∨ direction = "under" := by
  cases h with
  | «over» => exact Or.inl rfl
  | under => exact Or.inr rfl

theorem Prepares.target_eq {key : String × String} {target : UInt64} {mid : Site}
    (h : Prepares key before service replicas direction target mid) (hOver : direction = "over") :
    target = replicas + 1 := by
  cases h with
  | «over» => rfl
  | under => exact absurd hOver (by decide)

/-- The prepared site has the prepared service. -/
theorem Prepares.stored {target : UInt64} {mid : Site} (hStored : before.world.services serviceID = some service)
    (h : Prepares (ip, serviceID) before service replicas direction target mid) :
    mid.world.services serviceID = some (readied service direction) := by
  cases h with
  | under => exact stored_constrain hStored
  | «over» cancelled =>
      rcases cancelled_cases cancelled with ⟨_, rfl⟩ | ⟨ch, _, _, rfl⟩
      · exact stored_constrain hStored
      · exact stored_constrain hStored

/-- What the preparation does to the keep-alives. -/
theorem Prepares.keepAlives {target : UInt64} {mid : Site}
    (h : Prepares (ip, serviceID) before service replicas direction target mid) :
    ((direction = "over" → before.world.keepAliveOps (ip, serviceID) = none) ∧
        mid.world.keepAliveOps = before.world.keepAliveOps ∧ mid.waiting = before.waiting) ∨
      (direction = "over" ∧ ∃ ch, before.world.keepAliveOps (ip, serviceID) = some ch ∧ before.listens ch = true ∧
        mid.world.keepAliveOps = Function.update before.world.keepAliveOps (ip, serviceID) none ∧
        mid.waiting = (before.receive ch).waiting) := by
  cases h with
  | under =>
      obtain ⟨hEntries, hWaiting⟩ := @constrain_frame serviceID "under" before service
      exact Or.inl ⟨fun hOver => absurd hOver (by decide), hEntries, hWaiting⟩
  | «over» cancelled =>
      obtain ⟨hEntries, hWaiting⟩ := @constrain_frame serviceID "over" before service
      rcases cancelled_cases cancelled with ⟨hNone, rfl⟩ | ⟨ch, hFound, hListens, rfl⟩
      · exact Or.inl ⟨fun _ => hEntries ▸ hNone, hEntries, hWaiting⟩
      · refine Or.inr ⟨rfl, ch, hEntries ▸ hFound, ?_, ?_, ?_⟩
        · rwa [Site.listens, hWaiting] at hListens
        · exact congrArg (fun entries => Function.update entries (ip, serviceID) none) hEntries
        · exact congrArg (fun waiting => List.eraseP (fun keepAlive : KeepAlive => keepAlive.ch == ch) waiting)
            hWaiting

theorem counted_of_eval {target : UInt64} {mid : Site}
    (manager : (nodes.info ip).autoscalerManager = true) (stored : before.world.services serviceID = some service)
    (count : service.spec.replicas? = some replicas) (read : fails 0 = false)
    (written : constrains service direction = true →
      fails 1 = false ∧ service.spec.taskTemplate.placement.isSome = true)
    (prepares : Prepares (ip, serviceID) before service replicas direction target mid)
    (h : (scaleTo serviceID target).eval (solo nodes thread) fails (firstOfScaleTo service direction) mid =
      some outcome) :
    Course nodes ip serviceID direction thread fails before outcome := by
  have hMode : (readied service direction).spec.mode.replicated.isSome = true :=
    mode_of_replicas? (replicas?_readied.trans count)
  rw [eval_scaleTo (prepares.stored stored) hMode] at h
  cases h
  exact .counted manager stored count read written prepares

theorem course_of_eval
    (hId : ∀ service ∈ before.world.services serviceID, constrains service direction = true →
      service.id = serviceID)
    (h : (changeServiceReplicas ⟨ip, nodes.info ip⟩ serviceID direction).eval (solo nodes thread) fails 0 before =
      some outcome) :
    Course nodes ip serviceID direction thread fails before outcome := by
  unfold changeServiceReplicas at h
  split at h
  · next hWorker =>
      cases h
      exact .refused (.worker (by simpa using hWorker))
  · next hManager =>
      have hManager : (nodes.info ip).autoscalerManager = true := by simpa using hManager
      rw [eval_inspect] at h
      cases hRead : fails 0 with
      | true =>
          simp only [World.inspect, hRead, ↓reduceIte] at h
          cases h
          exact .refused (.unread hRead)
      | false =>
          cases hStored : before.world.services serviceID with
          | none =>
              simp only [World.inspect, hRead, hStored, Bool.false_eq_true, ↓reduceIte] at h
              cases h
              exact .refused (.unknown hStored)
          | some service =>
              simp only [World.inspect, hRead, hStored, Bool.false_eq_true, ↓reduceIte] at h
              cases hReplicas : service.spec.replicas? with
              | none =>
                  simp only [hReplicas] at h
                  cases h
                  exact .refused (.unscalable hStored hReplicas)
              | some replicas =>
                  simp only [hReplicas] at h
                  have hSame := hId service hStored
                  split at h
                  · next hOver =>
                      subst hOver
                      unfold changeOver at h
                      have hConstrains : constrains service "over" =
                          ((service.spec.labels.lookup "autoscaler.handlerNode").isSome && decide
                            (replicas = 1)) := by
                        simp [constrains, hReplicas]
                      rcases constrain_of_eval false hStored hSame (fun h => by rw [hReplicas, h]; rfl)
                        hConstrains h with ⟨hAt, hFails, hEnd⟩ | ⟨hWritten, hEnd⟩
                      · cases hEnd
                        exact .refused (.unwritten hStored hAt hFails)
                      · dsimp only at hEnd
                        rw [eval_cancelKeepAlive] at hEnd
                        obtain ⟨mid, hCancelled, hEnd⟩ := Option.bind_eq_some_iff.mp hEnd
                        exact counted_of_eval hManager hStored hReplicas hRead hWritten (.over hCancelled) hEnd
                  · next hNotOver =>
                      split at h
                      · next hUnder =>
                          subst hUnder
                          unfold changeUnder at h
                          split at h
                          · next hMany =>
                              have hConstrains : constrains service "under" =
                                  ((service.spec.labels.lookup "autoscaler.handlerNode").isSome &&
                                    decide (replicas - 1 = 1)) := by
                                simp [constrains, hReplicas, sub_one_eq_one_iff]
                              rcases constrain_of_eval true hStored hSame
                                (fun h => by rw [hReplicas, eq_two_of_sub_one h]; rfl) hConstrains h with
                                ⟨hAt, hFails, hEnd⟩ | ⟨hWritten, hEnd⟩
                              · cases hEnd
                                exact .refused (.unwritten hStored hAt hFails)
                              · exact counted_of_eval hManager hStored hReplicas hRead hWritten (.under hMany) hEnd
                          · next hFew =>
                              rw [eval_startKeepAlive] at h
                              cases h
                              exact .kept hStored hReplicas hFew rfl
                      · next hNotUnder =>
                          cases h
                          exact .refused (.undirected hNotOver hNotUnder)

end Eval

end Cluster
