import SwarmAutoscaler.Cluster.Pin
import SwarmAutoscaler.Cluster.Rounds

/-! The operator's own placement constraints. At the boundary of 1 and 2 replicas the whole
list of constraints is overwritten, whatever it holds. -/
namespace Cluster

open Docker Process

section Abstract

/-- Count and constraints of a service, all that scaling is about. -/
structure Shape where
  replicas : UInt64
  constraints : List String
  deriving DecidableEq, Repr

/-- What a round is for the shape. -/
inductive Move where
  | over
  | under
  | sleep
  | wake
  | idle
  deriving DecidableEq, Repr

variable (hostName : String) (first shape : Shape)

/-- One successful round on the count and the constraints of a service: the constraints
change only where the count crosses 1. -/
def Shape.move : Move → Shape
  | .over => ⟨shape.replicas + 1, if shape.replicas = 1 then [] else shape.constraints⟩
  | .under =>
      if shape.replicas > 1 then
        ⟨shape.replicas - 1, if shape.replicas = 2 then [handlerConstraint hostName] else shape.constraints⟩
      else shape
  | .sleep => ⟨0, shape.constraints⟩
  | .wake => ⟨1, shape.constraints⟩
  | .idle => shape

/-- The constraints of the first shape that are not the autoscaler's are still there, and on
the first side of the boundary the list is the first one. -/
structure Preserves : Prop where
  own : ∀ constraint ∈ first.constraints, constraint ≠ handlerConstraint hostName → constraint ∈ shape.constraints
  restored : (first.replicas ≤ 1 ↔ shape.replicas ≤ 1) → shape.constraints = first.constraints

/-- There were no constraints but the autoscaler's. -/
def Bare : Prop := ∀ constraint ∈ first.constraints, constraint = handlerConstraint hostName

/-- The move overwrites the list only if there were no other constraints, and it comes back
to the first side of the boundary only with the first list. -/
def Harmless : Move → Prop
  | .over =>
      (shape.replicas = 1 → Bare hostName first ∧ (1 < first.replicas → first.constraints = [])) ∧
        (shape.replicas + 1 = 0 → first.replicas ≤ 1 → shape.constraints = first.constraints)
  | .under =>
      shape.replicas = 2 →
        Bare hostName first ∧ (first.replicas ≤ 1 → first.constraints = [handlerConstraint hostName])
  | .sleep | .wake => first.replicas ≤ 1 → shape.constraints = first.constraints
  | .idle => True

instance : Decidable (Bare hostName first) :=
  inferInstanceAs (Decidable (∀ constraint ∈ first.constraints, constraint = handlerConstraint hostName))

instance : DecidablePred (Harmless hostName first shape)
  | .over => inferInstanceAs (Decidable ((_ → _) ∧ (_ → _)))
  | .under => inferInstanceAs (Decidable (_ → _))
  | .sleep | .wake => inferInstanceAs (Decidable (_ → _))
  | .idle => isTrue trivial

variable {hostName first shape}

theorem preserves_refl : Preserves hostName first first := ⟨fun _ hMem _ => hMem, fun _ => rfl⟩

theorem succ_le_one_iff {replicas : UInt64} : replicas + 1 ≤ 1 ↔ replicas = 0 ∨ replicas + 1 = 0 := by
  have hBound := replicas.toNat_lt
  simp only [UInt64.le_iff_toNat_le, ← UInt64.toNat_inj, UInt64.toNat_add, UInt64.reduceToNat]
  omega

theorem le_one_iff {replicas : UInt64} : replicas ≤ 1 ↔ replicas = 0 ∨ replicas = 1 := by
  simp only [UInt64.le_iff_toNat_le, ← UInt64.toNat_inj, UInt64.reduceToNat]
  omega

theorem sub_one_le_one_iff {replicas : UInt64} (hMany : replicas > 1) : replicas - 1 ≤ 1 ↔ replicas = 2 := by
  have hLe : (1 : UInt64) ≤ replicas := UInt64.le_of_lt hMany
  have hLt : (1 : UInt64).toNat < replicas.toNat := UInt64.lt_iff_toNat_lt.mp hMany
  simp only [UInt64.le_iff_toNat_le, ← UInt64.toNat_inj, UInt64.toNat_sub_of_le replicas 1 hLe,
    UInt64.reduceToNat] at hLt ⊢
  omega

/-- Another count under the same list. -/
theorem preserves_counted_iff (h : Preserves hostName first shape) {replicas : UInt64} :
    Preserves hostName first ⟨replicas, shape.constraints⟩ ↔
      ((first.replicas ≤ 1 ↔ replicas ≤ 1) → shape.constraints = first.constraints) :=
  ⟨fun hNext => hNext.restored, fun hRestored => ⟨h.own, hRestored⟩⟩

/-- Another list, without constraints of the operator. -/
theorem preserves_overwritten_iff {replicas : UInt64} {constraints : List String}
    (hNone : ∀ constraint ∈ constraints, constraint = handlerConstraint hostName) :
    Preserves hostName first ⟨replicas, constraints⟩ ↔
      Bare hostName first ∧ ((first.replicas ≤ 1 ↔ replicas ≤ 1) → first.constraints = constraints) := by
  constructor
  · intro h
    refine ⟨fun constraint hMem => ?_, fun hSide => (h.restored hSide).symm⟩
    by_contra hOther
    exact hOther (hNone constraint (h.own constraint hMem hOther))
  · rintro ⟨hBare, hRestored⟩
    exact ⟨fun constraint hMem hOther => absurd (hBare constraint hMem) hOther,
      fun hSide => (hRestored hSide).symm⟩

theorem preserves_move_iff (h : Preserves hostName first shape) (move : Move) :
    Preserves hostName first (shape.move hostName move) ↔ Harmless hostName first shape move := by
  cases move with
  | «over» =>
      by_cases hOne : shape.replicas = 1
      · have hMove : shape.move hostName .over = ⟨2, []⟩ := by simp [Shape.move, hOne]
        rw [hMove, preserves_overwritten_iff (by simp), Harmless, hOne]
        simp
      · have hMove : shape.move hostName .over = ⟨shape.replicas + 1, shape.constraints⟩ := by
          simp [Shape.move, hOne]
        rw [hMove, preserves_counted_iff h, Harmless]
        constructor
        · intro hNext
          have hBack (hWrap : shape.replicas + 1 = 0) (hFirst : first.replicas ≤ 1) :
              shape.constraints = first.constraints :=
            hNext (iff_of_true hFirst (succ_le_one_iff.mpr (Or.inr hWrap)))
          exact ⟨fun h => absurd h hOne, hBack⟩
        · rintro ⟨_, hWrapped⟩ hSide
          by_cases hWrap : shape.replicas + 1 = 0
          · exact hWrapped hWrap (hSide.mpr (succ_le_one_iff.mpr (Or.inr hWrap)))
          · apply h.restored
            rw [hSide, succ_le_one_iff, le_one_iff]
            simp [hOne, hWrap]
  | under =>
      by_cases hMany : shape.replicas > 1
      · by_cases hTwo : shape.replicas = 2
        · have hMove : shape.move hostName .under = ⟨1, [handlerConstraint hostName]⟩ := by simp [Shape.move, hTwo]
          rw [hMove, preserves_overwritten_iff (by simp), Harmless]
          simp [hTwo]
        · have hMove : shape.move hostName .under = ⟨shape.replicas - 1, shape.constraints⟩ := by
            simp [Shape.move, hMany, hTwo]
          have hLow : ¬ shape.replicas ≤ 1 := UInt64.not_le.mpr hMany
          rw [hMove, preserves_counted_iff h, sub_one_le_one_iff hMany]
          refine iff_of_true (fun hSide => h.restored ?_) fun h => absurd h hTwo
          rw [hSide]
          exact iff_of_false hTwo hLow
      · have hMove : shape.move hostName .under = shape := by simp [Shape.move, hMany]
        rw [hMove]
        exact iff_of_true h fun hTwo => absurd (hTwo ▸ by decide) hMany
  | sleep =>
      rw [Shape.move, preserves_counted_iff h, Harmless]
      simp
  | wake =>
      rw [Shape.move, preserves_counted_iff h, Harmless]
      simp
  | idle => exact iff_of_true h trivial

end Abstract

section Code

/-- A replicated service with a handler node. -/
structure Tied (hostName serviceID : String) (service : Service) : Prop where
  named : service.id = serviceID
  label : service.spec.labels.lookup "autoscaler.handlerNode" = some hostName
  placed : service.spec.taskTemplate.placement.isSome = true
  counted : service.spec.replicas?.isSome = true

/-- The service exists throughout the series, labelled with the host that is to handle
it. -/
def Deployed (hostName serviceID : String) (s : Series) : Prop :=
  ∃ service, s.site.world.services serviceID = some service ∧ Tied hostName serviceID service

/-- What the rounds below change of a service: its count and its constraints. -/
def shapeOf (service : Service) : Shape := ⟨service.spec.replicas?.getD 0, (listed service).getD []⟩

/-- The move that a round makes when it is successful. -/
def Series.move (nodes : Nodes) (serviceID : String) (s : Series) (round : Round) : Move :=
  match round.task with
  | .request _ direction => if direction = "over" then .over else .under
  | .timer keepAlive => if (s.site.world.keepAliveOps (keepAlive.ip, serviceID)).isSome then .sleep else .idle
  | .packet ip _ =>
      if (nodes.info ip).autoscalerManager then .wake
      else if nodes.serves (managerAddress (nodes.info ip).otherNodes) .scale then .over
      else .idle

/-- The service keeps the constraints that `first` had from its operator, and gets back the
list that it had then. -/
def PreservesConstraints (hostName serviceID : String) (first : Service) (s : Series) : Prop :=
  ∀ service ∈ s.site.world.services serviceID, Preserves hostName (shapeOf first) (shapeOf service)

/-- Scaling that goes through preserves the constraints. -/
def AlwaysPreserved : Prop :=
  ∀ (nodes : Nodes) (serviceID hostName : String) (first : Service) (start : Series) (rounds : List Round),
    Tied hostName serviceID first → start.site.world.services serviceID = some first →
    Meets (Series.step nodes serviceID) (Successful nodes serviceID) start rounds →
    Throughout (Series.step nodes serviceID) (PreservesConstraints hostName serviceID first) start rounds

/-- The service is deployed and nothing has happened yet. -/
def deployed (service : Service) : Series := ⟨⟨awake service, []⟩, []⟩

/-- A request to scale up, made to the manager itself. -/
def upward : Round := { task := .request "manager" "over" }

/-- A request to scale down, made to the manager itself. -/
def downward : Round := { task := .request "manager" "under" }

/-- A service with one replica that has to run on a worker node loses that constraint. -/
theorem not_alwaysPreserved : ¬ AlwaysPreserved := by
  intro h
  have hSuccessful :
      Successful pair "web" (deployed (tied 1 ["node.role==worker", handlerConstraint "host1"])) upward :=
    successful_of_outcome (fun _ => rfl) rfl rfl
  have hThroughout := h pair "web" "host1" (tied 1 ["node.role==worker", handlerConstraint "host1"])
    (deployed _) [upward]
    ⟨rfl, rfl, rfl, rfl⟩ rfl ⟨hSuccessful, fun _ _ => trivial⟩
  have hPreserves := (hThroughout.2 _ rfl) _ rfl
  exact absurd (hPreserves.own "node.role==worker" (by decide) (by decide)) (by decide)

variable {nodes : Nodes} {hostName serviceID ip direction : String} {service : Service} {replicas target : UInt64}
  {thread : Nat} {fails : Nat → Bool} {before mid : Site}

theorem Tied.scaled_readied (hTied : Tied hostName serviceID service) :
    Tied hostName serviceID (scaled (readied service direction) target) := by
  obtain ⟨placement, hPlaced⟩ := Option.isSome_iff_exists.mp hTied.placed
  unfold readied
  split
  · refine ⟨?_, ?_, ?_, rfl⟩
    · simpa [scaled, constrained_id] using hTied.named
    · simpa [scaled, labels_constrained, ServiceSpec.setReplicas] using hTied.label
    · simp [scaled, constrained, hTied.label, hPlaced, ServiceSpec.setReplicas, ServiceSpec.setPlacement]
  · exact ⟨hTied.named, hTied.label, hTied.placed, rfl⟩

/-- A request that comes to its count moves the shape in its direction. -/
theorem shape_counted (hTied : Tied hostName serviceID service) (hCount : service.spec.replicas? = some replicas)
    (h : Prepares (ip, serviceID) before service replicas direction target mid) :
    shapeOf (scaled (readied service direction) target) =
      (shapeOf service).move hostName (if direction = "over" then .over else .under) := by
  obtain ⟨placement, hPlaced⟩ := Option.isSome_iff_exists.mp hTied.placed
  have hListed : listed (constrained service) =
      some (if replicas = 2 then [handlerConstraint hostName] else []) := by
    simp [listed, constrained, hTied.label, hPlaced, hCount, ServiceSpec.setPlacement]
  have hShape : shapeOf service = ⟨replicas, (listed service).getD []⟩ := by rw [shapeOf, hCount, Option.getD_some]
  have hScaled : shapeOf (scaled (readied service direction) target) =
      ⟨target, (listed (readied service direction)).getD []⟩ := rfl
  have hConstrains : constrains service direction =
      decide (direction = "over" ∧ replicas = 1 ∨ direction = "under" ∧ replicas = 2) := by
    simp [constrains, hTied.label, hCount]
  rw [hScaled, hShape, readied, hConstrains]
  cases h with
  | «over» =>
      by_cases hOne : replicas = 1
      · simp [Shape.move, hOne, hListed]
      · simp [Shape.move, hOne]
  | under many =>
      by_cases hTwo : replicas = 2
      · simp [Shape.move, hTwo, hListed]
      · simp [Shape.move, hTwo, many]

theorem shape_of_course {outcome : Outcome Site Result} (hTied : Tied hostName serviceID service)
    (hStored : before.world.services serviceID = some service) (hNever : ∀ call, fails call = false)
    (hAccepted : outcome.result = .ok () ∨ ¬ Refuses (nodes.info ip) serviceID direction fails before)
    (h : Course nodes ip serviceID direction thread fails before outcome) :
    ∃ later, outcome.state.world.services serviceID = some later ∧ Tied hostName serviceID later ∧
      shapeOf later = (shapeOf service).move hostName (if direction = "over" then .over else .under) := by
  cases h with
  | refused early => exact absurd early (hAccepted.resolve_left nofun)
  | @kept other replicas hOther hCount hFew hUnder =>
      cases hStored.symm.trans hOther
      refine ⟨service, ?_, hTied, ?_⟩
      · split <;> exact hStored
      · subst hUnder
        have hReplicas : (shapeOf service).replicas = replicas := by rw [shapeOf, hCount, Option.getD_some]
        simp [Shape.move, hReplicas, hFew]
  | @counted other replicas target mid _ hOther hCount _ _ hPrepares =>
      cases hStored.symm.trans hOther
      rw [scaleOutcome, hNever, hNever]
      exact ⟨_, Function.update_self .., hTied.scaled_readied, shape_counted hTied hCount hPrepares⟩

/-- A successful round does to the service what its move does to the shape. -/
theorem shape_of_step {s t : Series} {round : Round} (hTied : Tied hostName serviceID service)
    (hStored : s.site.world.services serviceID = some service) (hSuccessful : Successful nodes serviceID s round)
    (hStep : s.step nodes serviceID round = some t) :
    ∃ later, t.site.world.services serviceID = some later ∧ Tied hostName serviceID later ∧
      shapeOf later = (shapeOf service).move hostName (s.move nodes serviceID round) := by
  obtain ⟨site, outcome, hStart, hEval, hOutcome, rfl⟩ := ran_of_step hStep
  obtain ⟨hNever, hOk⟩ := hSuccessful
  have hOk := hOk outcome hOutcome
  have hWorld := world_of_start hStart
  have hSite : site.world.services serviceID = some service := by rw [hWorld, hStored]
  unfold Series.move
  cases hTask : round.task with
  | request ip direction =>
      rw [hTask] at hEval
      exact shape_of_course hTied hSite hNever (Or.inl hOk)
        (course_of_eval (fun other hOther _ => by cases hSite.symm.trans hOther; exact hTied.named) hEval)
  | timer keepAlive =>
      rw [hTask] at hEval
      have hLapse := lapse_of_eval hEval
      rw [hOk] at hLapse
      dsimp only
      generalize outcome.state = after at hLapse ⊢
      cases hLapse with
      | gone hNone =>
          rw [hWorld] at hNone
          exact ⟨service, hSite, hTied, by simp [hNone, Shape.move]⟩
      | slept hFound _ hOther hKept =>
          cases hSite.symm.trans hOther
          rw [hWorld] at hFound
          refine ⟨_, Function.update_self .., ⟨hTied.named, hTied.label, hTied.placed, rfl⟩, ?_⟩
          rw [if_pos (Option.isSome_iff_ne_none.mpr hFound)]
          rfl
  | packet ip port =>
      rw [hTask] at hEval
      have hWake : (wakeUp nodes ip port serviceID).eval (solo nodes s.past.length) round.fails 0 site =
        some outcome := hEval
      rw [eval_wakeUp] at hWake
      have hKept := @kept_forgetAll port site (ip :: reached nodes round.fails 0 (nodes.info ip).otherNodes)
      generalize site.forgetAll port _ = forgotten at hWake hKept
      have hForgotten : forgotten.world.services serviceID = some service := by rw [hKept.services, hSite]
      have hRises := rises_of_eval
        (fun other hOther _ => by cases hForgotten.symm.trans hOther; exact hTied.named)
        (fun other hOther _ => by cases hForgotten.symm.trans hOther; exact hTied.placed) hWake
      obtain ⟨replicas, hCount⟩ := Option.isSome_iff_exists.mp hTied.counted
      dsimp only
      generalize outcome.state = after at hRises ⊢
      cases hRises with
      | scaled hManager hOther =>
          cases hForgotten.symm.trans hOther
          refine ⟨_, Function.update_self .., ⟨hTied.named, hTied.label, hTied.placed, rfl⟩, ?_⟩
          rw [if_pos hManager]
          rfl
      | failed _ hBroken =>
          have hTrue := hBroken (by rw [hForgotten]; nofun) (hNever _)
          rw [hNever] at hTrue
          cases hTrue
      | unheard hWorker hLost =>
          have hServes : ¬ nodes.serves (managerAddress (nodes.info ip).otherNodes) .scale = true :=
            fun h => hLost ⟨h, hNever _⟩
          exact ⟨service, hForgotten, hTied, by simp [hWorker, hServes, Shape.move]⟩
      | @asked asked hWorker hServes _ hCourse =>
          have hManager : (nodes.info (managerAddress (nodes.info ip).otherNodes)).autoscalerManager = true := by
            simpa [Nodes.serves] using (Bool.and_eq_true_iff.mp hServes).2
          have hAccepted {fails : Nat → Bool} (hNever : ∀ call, fails call = false) :
              ¬ Refuses (nodes.info (managerAddress (nodes.info ip).otherNodes)) serviceID "over" fails
                forgotten := by
            intro hRefuses
            rcases hRefuses.broken hManager hForgotten hCount (Or.inl rfl) with hFails | ⟨_, hFails⟩
            · simp [hNever] at hFails
            · simp [hNever] at hFails
          have hUnfailing (call : Nat) : round.fails
            (call + (afterRemoval nodes round.fails 0 (nodes.info ip).otherNodes + 1)) =
              false := hNever _
          have hShape := shape_of_course hTied hForgotten hUnfailing (Or.inr (hAccepted hUnfailing)) hCourse
          simpa [hWorker, hServes] using hShape

/-- A run of successful rounds preserves the constraints exactly when all its moves are
harmless. -/
theorem preservesConstraints_iff_harmless {first : Service} {start finish : Series} {rounds : List Round}
    (hTied : Tied hostName serviceID first) (hStored : start.site.world.services serviceID = some first)
    (hSuccessful : Meets (Series.step nodes serviceID) (Successful nodes serviceID) start rounds)
    (hRun : run (Series.step nodes serviceID) start rounds = some finish) :
    Throughout (Series.step nodes serviceID) (PreservesConstraints hostName serviceID first) start rounds ↔
      Meets (Series.step nodes serviceID) (fun s round => ∀ service ∈ s.site.world.services serviceID,
        Harmless hostName (shapeOf first) (shapeOf service) (s.move nodes serviceID round)) start rounds := by
  have hDeployed : Deployed hostName serviceID start := ⟨first, hStored, hTied⟩
  refine throughout_iff_meets ?_ ?_ hDeployed ?_ hSuccessful hRun
  · rintro s round t ⟨service, hStored, hTied⟩ hSuccessful _ hStep
    obtain ⟨later, hLater, hTiedLater, _⟩ := shape_of_step hTied hStored hSuccessful hStep
    exact ⟨later, hLater, hTiedLater⟩
  · rintro s round t ⟨service, hStored, hTied⟩ hSuccessful hHolds hStep
    obtain ⟨later, hLater, _, hShape⟩ := shape_of_step hTied hStored hSuccessful hStep
    have hExact := preserves_move_iff (hHolds service hStored) (s.move nodes serviceID round)
    simpa [PreservesConstraints, hStored, hLater, hShape] using hExact
  · intro service hOther
    cases hStored.symm.trans hOther
    exact preserves_refl


/-- Up and down again, with the list that the autoscaler itself sets. -/
theorem preservesConstraints_iff_harmless_tied :
    Throughout (Series.step pair "web") (PreservesConstraints "host1" "web" (tied 1 [handlerConstraint "host1"]))
      (deployed (tied 1 [handlerConstraint "host1"])) [upward, downward] := by
  have hSuccessful : Meets (Series.step pair "web") (Successful pair "web")
      (deployed (tied 1 [handlerConstraint "host1"])) [upward, downward] := by
    refine ⟨successful_of_outcome (fun _ => rfl) rfl rfl, fun next hNext => ?_⟩
    cases hNext
    exact ⟨successful_of_outcome (fun _ => rfl) rfl rfl, fun _ _ => trivial⟩
  have hTied : Tied "host1" "web" (tied 1 [handlerConstraint "host1"]) := ⟨rfl, rfl, rfl, rfl⟩
  have hRun : run (Series.step pair "web") (deployed (tied 1 [handlerConstraint "host1"])) [upward, downward] =
    some _ := rfl
  exact (preservesConstraints_iff_harmless hTied rfl hSuccessful hRun).mpr (by decide +kernel)

end Code

end Cluster
