import SwarmAutoscaler.Cluster.Course
import SwarmAutoscaler.Cluster.Pin

/-! Half-done requests. A request changes the constraints and cancels a keep-alive before it
writes its count; nothing puts them back when the count cannot be written. -/
namespace Cluster

open Docker Process

/-- Count, constraints, keep-alive table and waiting goroutines are as before. -/
structure Untouched (serviceID : String) (before after : Site) : Prop where
  count : after.world.replicas serviceID = before.world.replicas serviceID
  constraints : (after.world.services serviceID).bind listed = (before.world.services serviceID).bind listed
  entries : after.world.keepAliveOps = before.world.keepAliveOps
  waiting : after.waiting = before.waiting

/-- The part of the constraint: at the boundary of 1 and 2 replicas it comes or goes. -/
def ConstraintFollows (serviceID direction : String) (service : Service) (before after : World) : Prop :=
  if constrains service direction = true then
    ∀ hostName ∈ service.spec.labels.lookup "autoscaler.handlerNode", ∀ later ∈ after.services serviceID,
      (Pinned hostName later.spec ↔ direction = "under")
  else (after.services serviceID).bind listed = (before.services serviceID).bind listed

/-- The part of the keep-alive: "over" cancels it, "under" at the last replica starts one. -/
def KeepAliveFollows (ip serviceID direction : String) (replicas : UInt64) (before after : Site) : Prop :=
  if direction = "over" then
    before.world.keepAliveOps (ip, serviceID) = none ∧ after.world.keepAliveOps = before.world.keepAliveOps ∧
        after.waiting = before.waiting ∨
      ∃ ch, before.world.keepAliveOps (ip, serviceID) = some ch ∧ before.listens ch = true ∧
        after.world.keepAliveOps = Function.update before.world.keepAliveOps (ip, serviceID) none ∧
        after.waiting = (before.receive ch).waiting
  else if replicas > 1 then
    after.world.keepAliveOps = before.world.keepAliveOps ∧ after.waiting = before.waiting
  else
    before.world.keepAliveOps (ip, serviceID) ≠ none ∧ after = before ∨
      ∃ ch, after.world.keepAliveOps = Function.update before.world.keepAliveOps (ip, serviceID) (some ch) ∧
        after.waiting = before.waiting ++ [⟨ip, serviceID, ch⟩]

/-- All parts of the change are there. -/
def TookEffect (ip serviceID direction : String) (before after : Site) : Prop :=
  ∃ service replicas, before.world.services serviceID = some service ∧ service.spec.replicas? = some replicas ∧
    after.world.replicas serviceID = some (if direction = "over" then replicas + 1
      else if replicas > 1 then replicas - 1 else replicas) ∧
    ConstraintFollows serviceID direction service before.world after.world ∧
    KeepAliveFollows ip serviceID direction replicas before after

/-- An error leaves everything as it was, nil means that the whole change was made. -/
def AllOrNothing (ip serviceID direction : String) (before : Site) (outcome : Outcome Site Result) : Prop :=
  match outcome.result with
  | .error _ => Untouched serviceID before outcome.state
  | .ok _ => TookEffect ip serviceID direction before outcome.state

/-- Every request is all or nothing. -/
def AlwaysAllOrNothing : Prop :=
  ∀ (nodes : Nodes) (ip serviceID direction : String) (thread : Nat) (fails : Nat → Bool) (before : Site)
    (outcome : Outcome Site Result), Named before.world →
    (changeServiceReplicas ⟨ip, nodes.info ip⟩ serviceID direction).eval (solo nodes thread) fails 0 before =
      some outcome → AllOrNothing ip serviceID direction before outcome

/-- The constraint has been removed when the second inspect fails. -/
theorem not_alwaysAllOrNothing : ¬ AlwaysAllOrNothing := by
  intro h
  have hUntouched : Untouched "web" ⟨awake (tied 1 [handlerConstraint "host1"]), []⟩ _ :=
    h pair "manager" "web" "over" 2 (fun call => call == 2) ⟨awake (tied 1 [handlerConstraint "host1"]), []⟩ _
      (named_awake _) rfl
  exact absurd hUntouched.constraints (by decide)

/-- Before it comes to its count, the request cancels a keep-alive or changes the list of
constraints. -/
def Alters (ip serviceID direction : String) (before : Site) (service : Service) : Prop :=
  direction = "over" ∧ before.world.keepAliveOps (ip, serviceID) ≠ none ∨
    constrains service direction = true ∧ listed (constrained service) ≠ listed service

/-- Once a request that is not refused has altered anything, the calls of `scaleTo` get through. -/
def Unbroken (nodes : Nodes) (ip serviceID direction : String) (fails : Nat → Bool) (before : Site) : Prop :=
  ¬ Refuses (nodes.info ip) serviceID direction fails before →
    ∀ service ∈ before.world.services serviceID, Alters ip serviceID direction before service →
      fails (firstOfScaleTo service direction) = false ∧ fails (firstOfScaleTo service direction + 1) = false

section Exact

variable {nodes : Nodes} {ip serviceID direction : String} {thread : Nat} {fails : Nat → Bool} {before mid : Site}
  {service : Service} {replicas target : UInt64} {outcome : Outcome Site Result}

theorem untouched_refl : Untouched serviceID before before := ⟨rfl, rfl, rfl, rfl⟩

theorem not_constrains_of_few (hCount : service.spec.replicas? = some replicas) (hFew : ¬ replicas > 1) :
    constrains service "under" = false := by
  rw [Bool.eq_false_iff]
  intro hConstrains
  have hTwo : replicas = 2 := by simpa [hCount] using (constrains_iff.mp hConstrains).2
  exact hFew (hTwo ▸ by decide)

theorem not_alters_of_few (hCount : service.spec.replicas? = some replicas) (hFew : ¬ replicas > 1) :
    ¬ Alters ip serviceID "under" before service := by
  rintro (⟨hOver, _⟩ | ⟨hConstrains, _⟩)
  · exact absurd hOver (by decide)
  · rw [not_constrains_of_few hCount hFew] at hConstrains
    cases hConstrains

/-- At the last replica an "under" starts a keep-alive, or leaves the one it finds. -/
theorem tookEffect_kept (hStored : before.world.services serviceID = some service)
    (hCount : service.spec.replicas? = some replicas) (hFew : ¬ replicas > 1) :
    TookEffect ip serviceID "under" before
      (if (before.world.keepAliveOps (ip, serviceID)).isSome then before
        else before.started ip serviceID thread) := by
  have hSame : (if (before.world.keepAliveOps (ip, serviceID)).isSome then before
      else before.started ip serviceID thread).world.services = before.world.services := by
    split <;> rfl
  refine ⟨service, replicas, hStored, hCount, ?_, ?_, ?_⟩
  · rw [World.replicas, hSame, hStored]
    simpa [hFew] using hCount
  · rw [ConstraintFollows, if_neg (by simp [not_constrains_of_few hCount hFew]), hSame]
  · rw [KeepAliveFollows, if_neg (by decide), if_neg hFew]
    split
    · next hFound => exact Or.inl ⟨by simpa [Option.isSome_iff_ne_none] using hFound, rfl⟩
    · exact Or.inr ⟨thread, rfl, rfl⟩

/-- What the preparation changes, seen at the count, the constraints and the keep-alive. -/
theorem untouched_prepares_iff (hStored : before.world.services serviceID = some service)
    (h : Prepares (ip, serviceID) before service replicas direction target mid) :
    Untouched serviceID before mid ↔ ¬ Alters ip serviceID direction before service := by
  have hMid := h.stored hStored
  constructor
  · rintro hUntouched (⟨hOver, hEntry⟩ | ⟨hConstrains, hListed⟩)
    · rcases h.keepAlives with ⟨hNone, _⟩ | ⟨_, ch, hFound, _, hEntries, _⟩
      · exact hEntry (hNone hOver)
      · have hGone : mid.world.keepAliveOps (ip, serviceID) = none := by rw [hEntries, Function.update_self]
        rw [hUntouched.entries] at hGone
        exact hEntry hGone
    · have hSame := hUntouched.constraints
      rw [hMid, hStored, readied, if_pos hConstrains] at hSame
      exact hListed hSame
  · intro hAlters
    have hKeepAlives : mid.world.keepAliveOps = before.world.keepAliveOps ∧ mid.waiting = before.waiting := by
      rcases h.keepAlives with ⟨_, hSame⟩ | ⟨hOver, ch, hFound, _⟩
      · exact hSame
      · exact absurd (Or.inl ⟨hOver, by rw [hFound]; exact nofun⟩) hAlters
    refine ⟨?_, ?_, hKeepAlives.1, hKeepAlives.2⟩
    · rw [World.replicas, World.replicas, hMid, hStored]
      exact replicas?_readied
    · rw [hMid, hStored]
      by_cases hConstrains : constrains service direction = true
      · have hListed : listed (constrained service) = listed service :=
          Decidable.not_not.mp fun hDiffers => hAlters (Or.inr ⟨hConstrains, hDiffers⟩)
        rwa [readied, if_pos hConstrains]
      · rw [readied, if_neg hConstrains]

theorem tookEffect_counted (hStored : before.world.services serviceID = some service)
    (hCount : service.spec.replicas? = some replicas)
    (hPlacement : constrains service direction = true → service.spec.taskTemplate.placement.isSome = true)
    (h : Prepares (ip, serviceID) before service replicas direction target mid) :
    TookEffect ip serviceID direction before (mid.setService serviceID
      (scaled (readied service direction) target)) := by
  have hAfter : (mid.setService serviceID (scaled (readied service direction) target)).world.services serviceID =
      some (scaled (readied service direction) target) := Function.update_self ..
  refine ⟨service, replicas, hStored, hCount, ?_, ?_, ?_⟩
  · rw [World.replicas, hAfter]
    cases h with
    | «over» => rfl
    | under many => simp [scaled, many]
  · unfold ConstraintFollows
    split
    · next hConstrains =>
        intro hostName hHost later hLater
        cases hAfter.symm.trans hLater
        obtain ⟨hLabel, hBoundary⟩ := constrains_iff.mp hConstrains
        have hVersion : (constrained service).version = service.version + 1 := by
          rw [constrained_eq hLabel (hPlacement hConstrains)]
        have hPinned := pinned_constrained hHost hVersion
        have hTwo : service.spec.replicas? = some 2 ↔ direction = "under" := by
          rcases hBoundary with ⟨rfl, hOne⟩ | ⟨rfl, hTwo⟩
          · simp [hOne]
          · simp [hTwo]
        rw [readied, if_pos hConstrains]
        exact hPinned.trans hTwo
    · next hConstrains =>
        rw [hAfter, hStored, readied, if_neg hConstrains]
        rfl
  · unfold KeepAliveFollows
    rcases h.keepAlives with ⟨hNone, hEntries, hWaiting⟩ | ⟨hOver, ch, hFound, hListens, hEntries, hWaiting⟩
    · cases h with
      | «over» => exact Or.inl ⟨hNone rfl, hEntries, hWaiting⟩
      | under many => simpa [many] using ⟨hEntries, hWaiting⟩
    · rw [if_pos hOver]
      exact Or.inr ⟨ch, hFound, hListens, hEntries, hWaiting⟩

/-- The result of a request tells whether its change was made exactly when its calls of
`scaleTo` get through, or nothing was altered before them. -/
theorem allOrNothing_iff_unbroken (hNamed : Named before.world)
    (hEval : (changeServiceReplicas ⟨ip, nodes.info ip⟩ serviceID direction).eval
      (solo nodes thread) fails 0 before =
      some outcome) :
    AllOrNothing ip serviceID direction before outcome ↔ Unbroken nodes ip serviceID direction fails before := by
  cases course_of_eval (fun service hStored _ => hNamed serviceID service hStored) hEval with
  | refused early => exact iff_of_true untouched_refl fun hNot => absurd early hNot
  | @kept service replicas hStored hCount hFew hUnder =>
      subst hUnder
      refine iff_of_true (tookEffect_kept hStored hCount hFew) fun _ other hOther hAlters => ?_
      cases hStored.symm.trans hOther
      exact absurd hAlters (not_alters_of_few hCount hFew)
  | @counted service replicas target mid hManager hStored hCount hRead hWritten hPrepares =>
      have hPlacement : constrains service direction = true → service.spec.taskTemplate.placement.isSome = true :=
        fun h => (hWritten h).2
      have hAccepted : ¬ Refuses (nodes.info ip) serviceID direction fails before := by
        intro hRefuses
        rcases hRefuses.broken hManager hStored hCount hPrepares.directed with hFails | ⟨hConstrains, hFails⟩
        · simp [hRead] at hFails
        · simp [hWritten hConstrains] at hFails
      have hUnbroken : Unbroken nodes ip serviceID direction fails before ↔
          (Alters ip serviceID direction before service →
            fails (firstOfScaleTo service direction) = false ∧
              fails (firstOfScaleTo service direction + 1) = false) := by
        simp [Unbroken, hAccepted, hStored]
      rw [hUnbroken]
      unfold scaleOutcome
      cases hInspect : fails (firstOfScaleTo service direction) with
      | true => simpa [AllOrNothing] using untouched_prepares_iff hStored hPrepares
      | false =>
          cases hUpdate : fails (firstOfScaleTo service direction + 1) with
          | true => simpa [AllOrNothing] using untouched_prepares_iff hStored hPrepares
          | false => simpa [AllOrNothing] using tookEffect_counted hStored hCount hPlacement hPrepares

/-- At the boundary, with every call getting through. -/
theorem allOrNothing_iff_unbroken_over :
    ∃ outcome, (changeServiceReplicas ⟨"manager", pair.info "manager"⟩ "web" "over").eval (solo pair 2)
        (fun _ => false) 0 ⟨awake (tied 1 [handlerConstraint "host1"]), []⟩ = some outcome ∧
      AllOrNothing "manager" "web" "over" ⟨awake (tied 1 [handlerConstraint "host1"]), []⟩ outcome := by
  have hEval : (changeServiceReplicas ⟨"manager", pair.info "manager"⟩ "web" "over").eval (solo pair 2)
      (fun _ => false) 0 ⟨awake (tied 1 [handlerConstraint "host1"]), []⟩ = some _ := rfl
  exact ⟨_, hEval, (allOrNothing_iff_unbroken (named_awake _) hEval).mpr fun _ _ _ _ => ⟨rfl, rfl⟩⟩

end Exact

end Cluster
