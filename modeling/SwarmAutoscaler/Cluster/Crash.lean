import SwarmAutoscaler.Cluster.Course
import SwarmAutoscaler.Cluster.Deployment
import SwarmAutoscaler.Cluster.Timer

/-! Which services can stop the process of a manager. `changeServiceReplicas` checks that the
replica count is there before it reads it; `scaleTo` and `updateServiceConstraints` follow
the pointers to the mode and to the placement unchecked. -/
namespace Cluster

open Docker Process

/-- Alone on the site the code succeeds or returns an error; it meets no nil pointer and
waits for nobody. -/
def Ends (nodes : Nodes) (site : Site) (program : Code Result) : Prop :=
  ∀ thread fails, (program.eval (solo nodes thread) fails 0 site).isSome = true

/-- The three functions end for every direction and every count, and "over" never makes the
count smaller. -/
structure Unharmed (nodes : Nodes) (serviceID : String) (site : Site) : Prop where
  change : ∀ self direction, Ends nodes site (changeServiceReplicas self serviceID direction)
  sleep : ∀ self ch, Ends nodes site (keepAliveAndScaleDown self serviceID ch)
  scaleTo : ∀ replicas, Ends nodes site (scaleTo serviceID replicas)
  grows : ∀ self thread fails outcome,
    (changeServiceReplicas self serviceID "over").eval (solo nodes thread) fails 0 site = some outcome →
    ∀ before ∈ site.world.replicas serviceID, ∀ after ∈ outcome.state.world.replicas serviceID, before ≤ after

/-- Whoever has an entry in a keep-alive table still waits for its timer. -/
def AllWait (serviceID : String) (site : Site) : Prop := ∀ ip, (site.cancelled (ip, serviceID)).isSome = true

/-- The statement of the claim for every service that is stored under its own ID, on every
node and in every state of the keep-alive table. -/
def NeverHarmed : Prop :=
  ∀ (nodes : Nodes) (serviceID : String) (site : Site),
    (∀ service ∈ site.world.services serviceID, service.id = serviceID) → AllWait serviceID site →
    Unharmed nodes serviceID site

/-- The service is replicated, can still grow, and has a placement where the autoscaler
writes one: with a handler node, at 1 or 2 replicas. -/
structure Sturdy (spec : ServiceSpec) : Prop where
  mode : spec.mode.replicated.isSome = true
  small : spec.replicas? ≠ some (-1)
  placed : (spec.labels.lookup "autoscaler.handlerNode").isSome = true → spec.taskTemplate.placement = none →
    spec.replicas? ≠ some 1 ∧ spec.replicas? ≠ some 2

/-- The service, if there is one, is sturdy, and a keep-alive of it can be cancelled. -/
def Tame (serviceID : String) (site : Site) : Prop :=
  ∀ service ∈ site.world.services serviceID,
    Sturdy service.spec ∧ (service.spec.replicas?.isSome = true → AllWait serviceID site)

/-- A global service that was registered at a listener. -/
theorem not_neverHarmed : ¬ NeverHarmed := by
  intro h
  have hNamed : ∀ service ∈ (awake { web 1 with spec := { mode := { replicated := none } } }).services "web",
      service.id = "web" := by
    intro service hStored
    cases hStored
    rfl
  have hEnds := (h pair "web" ⟨_, []⟩ hNamed fun _ => rfl).scaleTo 1
  exact absurd (hEnds 0 fun _ => false) (by decide)

section Ends

variable {nodes : Nodes} {thread calls : Nat} {fails : Nat → Bool} {serviceID : String} {self : Instance}
  {site after : Site} {service : Service} {replicas : UInt64}

/-- What a change of the constraints leaves alone, whether it succeeds or not. -/
structure Reconstrained (serviceID : String) (service : Service) (before after : Site) : Prop where
  entries : after.world.keepAliveOps = before.world.keepAliveOps
  waiting : after.waiting = before.waiting
  mode : ∃ service', after.world.services serviceID = some service' ∧ service'.spec.mode = service.spec.mode

theorem Reconstrained.refl (hStored : site.world.services serviceID = some service) :
    Reconstrained serviceID service site site := ⟨rfl, rfl, service, hStored, rfl⟩

theorem Reconstrained.cancelled (h : Reconstrained serviceID service site after) (key : String × String) :
    (after.cancelled key).isSome = (site.cancelled key).isSome := by
  unfold Site.cancelled Site.listens
  rw [h.entries, h.waiting]
  cases site.world.keepAliveOps key with
  | none => rfl
  | some ch =>
      dsimp only
      split <;> rfl

/-- Docker stores the spec under the ID that the service itself names, or refuses it. -/
theorem eval_update_any {id : String} {version : Nat} {spec : ServiceSpec}
    {next : signature.Answer (.serviceUpdate id version spec) → Code Result} : ∃ answer after,
    (Program.perform (.serviceUpdate id version spec) next : Code Result).eval
      (solo nodes thread) fails calls site =
        (next answer).eval (solo nodes thread) fails (calls + 1) after ∧
      (after = site ∨ ∃ stored, site.world.services id = some stored ∧
        after = site.setService id { stored with version := version + 1, spec := spec }) := by
  rw [Program.eval_call rfl]
  cases hFails : fails calls with
  | true => exact ⟨_, _, rfl, Or.inl rfl⟩
  | false =>
      cases hStored : site.world.services id with
      | none =>
          have hExec : (solo nodes thread).exec (.serviceUpdate id version spec) false site =
              some (.error "Error: No such service", site) := by simp [solo, Site.exec, exec, perform, hStored]
          rw [hExec]
          exact ⟨_, _, rfl, Or.inl rfl⟩
      | some stored =>
          by_cases hVersion : stored.version = version
          · have hExec : (solo nodes thread).exec (.serviceUpdate id version spec) false site =
                some (.ok (), site.setService id { stored with version := version + 1, spec := spec }) := by
              simp [solo, Site.exec, exec, perform, hStored, hVersion, Site.setService]
            rw [hExec]
            exact ⟨_, _, rfl, Or.inr ⟨stored, rfl, rfl⟩⟩
          · have hExec : (solo nodes thread).exec (.serviceUpdate id version spec) false site =
                some (.error "update out of sequence", site) := by
              simp [solo, Site.exec, exec, perform, hStored, hVersion]
            rw [hExec]
            exact ⟨_, _, rfl, Or.inl rfl⟩

theorem eval_updateServiceConstraints_placed {add : Bool} (hStored : site.world.services serviceID = some service)
    (hPlaced : (service.spec.labels.lookup "autoscaler.handlerNode").isSome = true →
      service.spec.taskTemplate.placement ≠ none) : ∃ outcome,
    (updateServiceConstraints service add).eval (solo nodes thread) fails calls site = some outcome ∧
      Reconstrained serviceID service site outcome.state := by
  unfold updateServiceConstraints
  split
  · exact ⟨_, rfl, .refl hStored⟩
  · next hostName hHost =>
      split
      · next hNone => exact absurd hNone (hPlaced (by rw [hHost]; rfl))
      · next placement hPlacement =>
          obtain ⟨answer, after, hEval, hAfter⟩ := @eval_update_any nodes thread calls fails site service.id
            service.version (service.spec.setPlacement { placement with constraints :=
              if add then ["node.hostname==" ++ hostName]
              else if placement.constraints ≠ [] then [] else placement.constraints }) .done
          refine ⟨_, hEval, ?_⟩
          rcases hAfter with rfl | ⟨stored, hSelf, rfl⟩
          · exact .refl hStored
          · refine ⟨rfl, rfl, ?_⟩
            by_cases hSame : serviceID = service.id
            · subst hSame
              exact ⟨_, Function.update_self .., rfl⟩
            · exact ⟨service, by simp [Site.setService, Function.update_of_ne hSame, hStored], rfl⟩

theorem eval_scaleTo_modal (h : ∀ service ∈ site.world.services serviceID,
      service.spec.mode.replicated.isSome = true) :
    ∃ outcome, (Cluster.scaleTo serviceID replicas).eval (solo nodes thread) fails calls site = some outcome ∧
      (outcome.state = site ∨ outcome.state.world.replicas serviceID = some replicas) := by
  cases hStored : site.world.services serviceID with
  | some service =>
      refine ⟨_, eval_scaleTo hStored (h service hStored), ?_⟩
      unfold scaleOutcome
      split
      · exact Or.inl rfl
      · split
        · exact Or.inl rfl
        · exact Or.inr (by simp [Site.setService, scaled])
  | none =>
      rw [Cluster.scaleTo, eval_inspect]
      cases hFails : fails calls with
      | true => exact ⟨_, rfl, Or.inl rfl⟩
      | false =>
          simp only [World.inspect, hStored, Bool.false_eq_true, ↓reduceIte]
          exact ⟨_, rfl, Or.inl rfl⟩

/-- Scaling after a change of the constraints: it ends, with the old count or the new one. -/
theorem Reconstrained.scales (h : Reconstrained serviceID service site after)
    (hMode : service.spec.mode.replicated.isSome = true) :
    ∃ outcome, (Cluster.scaleTo serviceID replicas).eval (solo nodes thread) fails calls after = some outcome ∧
      (outcome.state.world.replicas serviceID = service.spec.replicas? ∨
        outcome.state.world.replicas serviceID = some replicas) := by
  obtain ⟨service', hStored, hSame⟩ := h.mode
  have hModal : ∀ other ∈ after.world.services serviceID, other.spec.mode.replicated.isSome = true := by
    intro other hOther
    rw [Option.mem_unique hOther hStored, hSame]
    exact hMode
  obtain ⟨outcome, hEval, hCount⟩ := @eval_scaleTo_modal nodes thread calls fails serviceID after replicas hModal
  refine ⟨outcome, hEval, hCount.imp_left fun hUnchanged => ?_⟩
  rw [hUnchanged, World.replicas, hStored]
  show service'.spec.mode.replicated.bind _ = service.spec.mode.replicated.bind _
  rw [hSame]

/-- The entry is deleted, the goroutine told; then the service is scaled. -/
theorem Reconstrained.cancels (h : Reconstrained serviceID service site after) (hWait : AllWait serviceID site)
    (hMode : service.spec.mode.replicated.isSome = true) :
    ∃ outcome, (cancelKeepAlive self serviceID replicas).eval (solo nodes thread) fails calls after =
      some outcome ∧
      (outcome.state.world.replicas serviceID = service.spec.replicas? ∨
        outcome.state.world.replicas serviceID = some replicas) := by
  have hCancelled : (after.cancelled (self.ip, serviceID)).isSome = true := by
    rw [h.cancelled]
    exact hWait self.ip
  obtain ⟨mid, hMid⟩ := Option.isSome_iff_exists.mp hCancelled
  have hServices : mid.world.services = after.world.services := by
    rcases cancelled_cases hMid with ⟨_, rfl⟩ | ⟨ch, _, _, rfl⟩ <;> rfl
  rw [eval_cancelKeepAlive, hMid]
  have hScales := @Reconstrained.scales nodes thread calls fails serviceID mid mid service replicas
    ⟨rfl, rfl, by rw [hServices]; exact h.mode⟩ hMode
  exact hScales

/-- The first step of a change: the constraints, where they are to change. -/
theorem eval_constraints_if {add : Bool} {p : Prop} [Decidable p]
    (hStored : site.world.services serviceID = some service)
    (hPlaced : p → (service.spec.labels.lookup "autoscaler.handlerNode").isSome = true →
      service.spec.taskTemplate.placement ≠ none) : ∃ outcome,
    (if p then updateServiceConstraints service add else .done (.ok ()) : Code Result).eval
      (solo nodes thread) fails
        calls site = some outcome ∧ Reconstrained serviceID service site outcome.state := by
  by_cases h : p
  · rw [if_pos h]
    exact eval_updateServiceConstraints_placed hStored (hPlaced h)
  · rw [if_neg h]
    exact ⟨_, rfl, .refl hStored⟩

theorem eval_changeOver (hStored : site.world.services serviceID = some service) (hSturdy : Sturdy service.spec)
    (hWait : AllWait serviceID site) (hReplicas : service.spec.replicas? = some replicas) : ∃ outcome,
    (changeOver self serviceID service replicas).eval (solo nodes thread) fails calls site = some outcome ∧
      (outcome.state.world.replicas serviceID = some replicas ∨
        outcome.state.world.replicas serviceID = some (replicas + 1)) := by
  obtain ⟨first, hFirst, hAfter⟩ := @eval_constraints_if nodes thread calls fails serviceID site service false
    (replicas = 1) _ hStored fun hOne hLabel hNone => (hSturdy.placed hLabel hNone).1 (hOne ▸ hReplicas)
  rw [changeOver, Program.eval_bind, hFirst, Option.bind_some]
  rw [← hReplicas]
  cases first.result with
  | error err =>
      obtain ⟨service', hStored', hSame⟩ := hAfter.mode
      refine ⟨_, rfl, Or.inl ?_⟩
      show World.replicas first.state.world serviceID = _
      rw [World.replicas, hStored']
      show service'.spec.mode.replicated.bind _ = service.spec.mode.replicated.bind _
      rw [hSame]
  | ok _ => exact hAfter.cancels hWait hSturdy.mode

theorem eval_changeUnder (hStored : site.world.services serviceID = some service) (hSturdy : Sturdy service.spec)
    (hReplicas : service.spec.replicas? = some replicas) : ∃ outcome,
    (changeUnder self serviceID service replicas).eval (solo nodes thread) fails calls site = some outcome := by
  unfold changeUnder
  split
  · have hTwo (hOne : replicas - 1 = 1) : service.spec.replicas? = some 2 := by
      rw [hReplicas, (UInt64.sub_eq_iff_eq_add.mp hOne)]
      rfl
    obtain ⟨first, hFirst, hAfter⟩ := @eval_constraints_if nodes thread calls fails serviceID site service true
      (replicas - 1 = 1) _ hStored fun hOne hLabel hNone => (hSturdy.placed hLabel hNone).2 (hTwo hOne)
    dsimp only
    rw [Program.eval_bind, hFirst, Option.bind_some]
    cases first.result with
    | error err => exact ⟨_, rfl⟩
    | ok _ =>
        obtain ⟨outcome, hEval, _⟩ := @Reconstrained.scales nodes thread first.calls fails serviceID site
          first.state
          service (replicas - 1) hAfter hSturdy.mode
        exact ⟨outcome, hEval⟩
  · exact ⟨_, eval_startKeepAlive⟩

theorem eval_changeServiceReplicas (direction : String) (hTame : Tame serviceID site) : ∃ outcome,
    (changeServiceReplicas self serviceID direction).eval (solo nodes thread) fails calls site = some outcome ∧
      (direction = "over" → ∀ before ∈ site.world.replicas serviceID,
        ∀ after ∈ outcome.state.world.replicas serviceID, before ≤ after) := by
  have hSame : ∀ before ∈ site.world.replicas serviceID, ∀ after ∈ site.world.replicas serviceID,
      before ≤ after := by
    intro before hBefore after hAfter
    rw [Option.mem_unique hBefore hAfter]
    exact UInt64.le_refl _
  unfold changeServiceReplicas
  cases self.nodeInfo.autoscalerManager with
  | false => exact ⟨_, rfl, fun _ => hSame⟩
  | true =>
      simp only [Bool.not_true, Bool.false_eq_true, ↓reduceIte]
      rw [eval_inspect, World.inspect]
      cases fails calls with
      | true => exact ⟨_, rfl, fun _ => hSame⟩
      | false =>
          simp only [Bool.false_eq_true, ↓reduceIte]
          cases hStored : site.world.services serviceID with
          | none => exact ⟨_, rfl, fun _ => hSame⟩
          | some service =>
              obtain ⟨hSturdy, hWait⟩ := hTame service hStored
              dsimp only
              cases hReplicas : service.spec.replicas? with
              | none => exact ⟨_, rfl, fun _ => hSame⟩
              | some replicas =>
                  dsimp only
                  split
                  · obtain ⟨outcome, hEval, hCount⟩ :=
                      @eval_changeOver nodes thread (calls + 1) fails serviceID self
                      site service replicas hStored hSturdy (hWait (by rw [hReplicas]; rfl)) hReplicas
                    refine ⟨outcome, hEval, fun _ before hBefore after hAfter => ?_⟩
                    have hBefore' : before = replicas := by
                      rw [World.replicas, hStored] at hBefore
                      exact Option.mem_unique hBefore hReplicas
                    have hSmall : replicas ≠ -1 := fun hMax => hSturdy.small (hMax ▸ hReplicas)
                    have hGrows : replicas ≤ replicas + 1 := by
                      rw [UInt64.le_iff_toNat_le, UInt64.toNat_add]
                      have hLt := replicas.toNat_lt
                      have hNe : replicas.toNat ≠ 2 ^ 64 - 1 := fun hEq => hSmall (UInt64.toNat_inj.mp hEq)
                      rw [Nat.mod_eq_of_lt (by show replicas.toNat + 1 < _; omega)]
                      exact Nat.le_succ _
                    rw [hBefore']
                    rcases hCount with hOld | hNew
                    · rw [Option.mem_unique hAfter hOld]
                      exact UInt64.le_refl _
                    · rw [Option.mem_unique hAfter hNew]
                      exact hGrows
                  · next hOther =>
                      split
                      · obtain ⟨outcome, hEval⟩ :=
                          @eval_changeUnder nodes thread (calls + 1) fails serviceID self site
                          service replicas hStored hSturdy hReplicas
                        exact ⟨outcome, hEval, fun hOver => absurd hOver hOther⟩
                      · exact ⟨_, rfl, fun hOver => absurd hOver hOther⟩

theorem Tame.modal (h : Tame serviceID site) :
    ∀ service ∈ site.world.services serviceID, service.spec.mode.replicated.isSome = true :=
  fun service hStored => (h service hStored).1.mode

theorem eval_keepAliveAndScaleDown (ch : Nat) (hTame : Tame serviceID site) :
    ∃ outcome, (keepAliveAndScaleDown self serviceID ch).eval (solo nodes thread) fails calls site =
      some outcome := by
  have hTimer : Site.exec nodes thread (.selectTimer self.nodeInfo.keepAlive ch) false site =
    some (.timer, site) := rfl
  have hHas : Site.exec nodes thread (.keepAliveOpsHas self.ip serviceID) false site =
      some ((site.world.keepAliveOps (self.ip, serviceID)).isSome, site) := rfl
  rw [keepAliveAndScaleDown, eval_answered rfl hTimer]
  dsimp only
  rw [scaleDown, eval_answered rfl hHas]
  cases (site.world.keepAliveOps (self.ip, serviceID)).isSome with
  | false => exact ⟨_, rfl⟩
  | true =>
      obtain ⟨published, hPort, _⟩ := @eval_getPublishedPort nodes serviceID thread calls fails site
      dsimp only
      rw [Program.eval_bind, hPort, Option.bind_some]
      cases published with
      | error err => exact ⟨_, rfl⟩
      | ok port =>
          obtain ⟨listened, mid, hListen, _, hKept⟩ :=
            @eval_listenOnPort nodes serviceID self.ip port thread (calls + 1) fails site
          dsimp only
          rw [Program.eval_bind, hListen, Option.bind_some]
          cases listened with
          | error err => exact ⟨_, rfl⟩
          | ok _ =>
              obtain ⟨told, calls', last, hSend, _, _, hKept'⟩ :=
                @eval_sendListenRequestToAllNodes nodes serviceID port
                thread (calls + 1 + 1) fails mid self.nodeInfo
              dsimp only
              rw [Program.eval_bind, hSend, Option.bind_some]
              cases told with
              | error err => exact ⟨_, rfl⟩
              | ok _ =>
                  have hModal : ∀ service ∈ last.world.services serviceID,
                      service.spec.mode.replicated.isSome = true := by
                    rw [(hKept.trans hKept').services]
                    exact hTame.modal
                  obtain ⟨outcome, hScale, _⟩ :=
                    @eval_scaleTo_modal nodes thread calls' fails serviceID last 0 hModal
                  dsimp only
                  rw [Program.eval_bind, hScale, Option.bind_some]
                  cases outcome.result with
                  | error err => exact ⟨_, rfl⟩
                  | ok _ => exact ⟨_, eval_answered rfl rfl⟩

theorem unharmed_of_tame (nodes : Nodes) (hTame : Tame serviceID site) : Unharmed nodes serviceID site where
  change self direction thread fails := by
    obtain ⟨outcome, hEval, _⟩ := @eval_changeServiceReplicas nodes thread 0 fails serviceID self site direction
      hTame
    rw [hEval]
    rfl
  sleep self ch thread fails := by
    obtain ⟨outcome, hEval⟩ := @eval_keepAliveAndScaleDown nodes thread 0 fails serviceID self site ch hTame
    rw [hEval]
    rfl
  scaleTo replicas thread fails := by
    obtain ⟨outcome, hEval, _⟩ := @eval_scaleTo_modal nodes thread 0 fails serviceID site replicas hTame.modal
    rw [hEval]
    rfl
  grows self thread fails outcome hEval := by
    obtain ⟨other, hOther, hGrows⟩ := @eval_changeServiceReplicas nodes thread 0 fails serviceID self site
      "over" hTame
    rw [hEval] at hOther
    rw [Option.some.inj hOther]
    exact hGrows rfl

end Ends

section Harm

variable {nodes : Nodes} {serviceID : String} {site : Site} {service : Service} {replicas : UInt64}

/-- A manager at an IP. -/
def managing (ip : String) : Instance := ⟨ip, ⟨true, [], 5⟩⟩

/-- Nothing fails. -/
def smooth : Nat → Bool := fun _ => false

theorem eval_change_over (ip : String) (hStored : site.world.services serviceID = some service)
    (hReplicas : service.spec.replicas? = some replicas) :
    (changeServiceReplicas (managing ip) serviceID "over").eval (solo nodes 0) smooth 0 site =
      (changeOver (managing ip) serviceID service replicas).eval (solo nodes 0) smooth 1 site := by
  rw [changeServiceReplicas]
  simp only [managing, Bool.not_true, Bool.false_eq_true, ↓reduceIte]
  rw [eval_inspect, World.inspect]
  simp only [smooth, Bool.false_eq_true, ↓reduceIte, hStored, hReplicas]

theorem eval_change_under (ip : String) (hStored : site.world.services serviceID = some service)
    (hReplicas : service.spec.replicas? = some replicas) :
    (changeServiceReplicas (managing ip) serviceID "under").eval (solo nodes 0) smooth 0 site =
      (changeUnder (managing ip) serviceID service replicas).eval (solo nodes 0) smooth 1 site := by
  have hNotOver : ¬ "under" = "over" := by decide
  rw [changeServiceReplicas]
  simp only [managing, Bool.not_true, Bool.false_eq_true, ↓reduceIte]
  rw [eval_inspect, World.inspect]
  simp only [smooth, Bool.false_eq_true, ↓reduceIte, hStored, hReplicas, hNotOver]

theorem mode_of_unharmed (h : Unharmed nodes serviceID site)
    (hStored : site.world.services serviceID = some service) :
    service.spec.mode.replicated.isSome = true := by
  cases hMode : service.spec.mode.replicated with
  | some mode => rfl
  | none =>
      have hEnds := h.scaleTo 0 0 smooth
      rw [Cluster.scaleTo, eval_inspect, World.inspect] at hEnds
      simp only [smooth, Bool.false_eq_true, ↓reduceIte, hStored, hMode] at hEnds
      rw [eval_nilDereference] at hEnds
      cases hEnds

theorem placed_of_unharmed (h : Unharmed nodes serviceID site)
    (hStored : site.world.services serviceID = some service)
    (hLabel : (service.spec.labels.lookup "autoscaler.handlerNode").isSome = true)
    (hPlacement : service.spec.taskTemplate.placement = none) :
    service.spec.replicas? ≠ some 1 ∧ service.spec.replicas? ≠ some 2 := by
  constructor
  · intro hOne
    have hEnds := h.change (managing "") "over" 0 smooth
    rw [eval_change_over "" hStored hOne, changeOver, if_pos rfl, Program.eval_bind,
      eval_updateServiceConstraints_nil hLabel hPlacement] at hEnds
    cases hEnds
  · intro hTwo
    have hEnds := h.change (managing "") "under" 0 smooth
    rw [eval_change_under "" hStored hTwo, changeUnder, if_pos (by decide)] at hEnds
    dsimp only at hEnds
    rw [if_pos (by decide), Program.eval_bind, eval_updateServiceConstraints_nil hLabel hPlacement] at hEnds
    cases hEnds

/-- Without a failure the constraints are changed, where they are to change. -/
theorem eval_constraints_smooth (h : Unharmed nodes serviceID site)
    (hStored : site.world.services serviceID = some service) (hId : service.id = serviceID)
    (hReplicas : service.spec.replicas? = some replicas) : ∃ first,
    (if replicas = 1 then updateServiceConstraints service false else .done (.ok ()) : Code Result).eval
        (solo nodes 0) smooth 1 site = some first ∧ first.result = .ok () ∧
      Reconstrained serviceID service site first.state := by
  by_cases hOne : replicas = 1
  · subst hOne
    rw [if_pos rfl]
    cases hLabel : service.spec.labels.lookup "autoscaler.handlerNode" with
    | none =>
        refine ⟨⟨.ok (), 1, site⟩, ?_, rfl, .refl hStored⟩
        simp [updateServiceConstraints, hLabel]
    | some hostName =>
        have hLabelled : (service.spec.labels.lookup "autoscaler.handlerNode").isSome = true := by
          rw [hLabel]
          rfl
        have hPlaced : service.spec.taskTemplate.placement ≠ none :=
          fun hNone => (placed_of_unharmed h hStored hLabelled hNone).1 hReplicas
        obtain ⟨outcome, hEval, hAfter⟩ := @eval_updateServiceConstraints_placed nodes 0 1 smooth serviceID site
          service
          false hStored fun _ => hPlaced
        have hExact := @eval_updateServiceConstraints nodes 0 smooth 1 site serviceID service false hStored hId
          hReplicas
          hLabelled (Option.isSome_iff_ne_none.mpr hPlaced)
        rw [hEval] at hExact
        refine ⟨outcome, hEval, ?_, hAfter⟩
        rw [Option.some.inj hExact]
        rfl
  · rw [if_neg hOne]
    exact ⟨_, rfl, rfl, .refl hStored⟩

/-- An "over" that ends has cancelled the keep-alive on its way. -/
theorem allWait_of_unharmed (h : Unharmed nodes serviceID site)
    (hStored : site.world.services serviceID = some service)
    (hId : service.id = serviceID) (hReplicas : service.spec.replicas? = some replicas) :
    AllWait serviceID site := by
  intro ip
  obtain ⟨first, hFirst, hOk, hAfter⟩ := eval_constraints_smooth h hStored hId hReplicas
  have hEnds := h.change (managing ip) "over" 0 smooth
  rw [eval_change_over ip hStored hReplicas, changeOver, Program.eval_bind, hFirst, Option.bind_some, hOk] at hEnds
  dsimp only at hEnds
  rw [eval_cancelKeepAlive, Option.isSome_bind, Option.any_eq_true] at hEnds
  obtain ⟨mid, hMid, _⟩ := hEnds
  rw [← hAfter.cancelled]
  exact Option.isSome_iff_exists.mpr ⟨mid, hMid⟩

/-- The largest count grows to 0. -/
theorem small_of_unharmed (h : Unharmed nodes serviceID site)
    (hStored : site.world.services serviceID = some service)
    (hId : service.id = serviceID) : service.spec.replicas? ≠ some (-1) := by
  intro hMax
  obtain ⟨mid, hMid⟩ := Option.isSome_iff_exists.mp (allWait_of_unharmed h hStored hId hMax "")
  have hServices : mid.world.services = site.world.services := by
    rcases cancelled_cases hMid with ⟨_, rfl⟩ | ⟨ch, _, _, rfl⟩ <;> rfl
  have hEval : (changeServiceReplicas (managing "") serviceID "over").eval (solo nodes 0) smooth 0 site =
      some (scaleOutcome smooth 1 mid serviceID service (-1 + 1)) := by
    rw [eval_change_over "" hStored hMax, changeOver, if_neg (by decide), Program.done_bind]
    dsimp only
    rw [eval_cancelKeepAlive, show (managing "").ip = "" from rfl, hMid, Option.bind_some]
    exact eval_scaleTo (hServices ▸ hStored) (mode_of_unharmed h hStored)
  have hBefore : site.world.replicas serviceID = some (-1) := by
    rw [World.replicas, hStored]
    exact hMax
  have hAfter : (scaleOutcome smooth 1 mid serviceID service (-1 + 1)).state.world.replicas serviceID =
      some (-1 + 1) := by
    simp [scaleOutcome, smooth, Site.setService, scaled]
  exact absurd (h.grows (managing "") 0 smooth _ hEval _ hBefore _ hAfter) (by decide)

end Harm

/-- No call about the service crashes the process or waits in vain, and "over" does not
shrink it, exactly when the service is sturdy and its keep-alives can be cancelled. -/
theorem unharmed_iff_tame (nodes : Nodes) {serviceID : String} {site : Site}
    (hNamed : ∀ service ∈ site.world.services serviceID, service.id = serviceID) :
    Unharmed nodes serviceID site ↔ Tame serviceID site := by
  refine ⟨fun h service hStored => ⟨⟨mode_of_unharmed h hStored,
    small_of_unharmed h hStored (hNamed service hStored),
    placed_of_unharmed h hStored⟩, fun hSet => ?_⟩, unharmed_of_tame nodes⟩
  obtain ⟨replicas, hReplicas⟩ := Option.isSome_iff_exists.mp hSet
  exact allWait_of_unharmed h hStored (hNamed service hStored) hReplicas

/-- A service on its handler node that waits for its timer. -/
def drowsyTied : Site := Site.started ⟨awake (tied 1 ["node.hostname==host1"]), []⟩ "manager" "web" 0

theorem unharmed_web : Unharmed pair "web" drowsyTied := by
  refine (unharmed_iff_tame pair fun service hStored => ?_).mpr fun service hStored => ?_
  · cases hStored
    rfl
  · cases hStored
    refine ⟨⟨rfl, by decide, nofun⟩, fun _ ip => ?_⟩
    by_cases hManager : ip = "manager"
    · subst hManager
      rfl
    · have hNone : drowsyTied.world.keepAliveOps (ip, "web") = none :=
        Function.update_of_ne (fun hSame => hManager (congrArg Prod.fst hSame)) ..
      rw [Site.cancelled, hNone]
      rfl

end Cluster
