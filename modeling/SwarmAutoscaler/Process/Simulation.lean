import SwarmAutoscaler.Process.Run

/-! Runs of a system and runs of a simpler one that says what the first is for. Each state
of the first has a picture among the states of the second, each action a label. -/
namespace Process

variable {State Action State' Action' : Type} {step : State → Action → Option State}
  {step' : State' → Action' → Option State'} {inv : State → Prop} {guard : State → Action → Prop}

/-- Every guarded step is the labelled step on the pictures: the one is possible when the
other is, and they end alike. -/
structure Commutes (step : State → Action → Option State) (step' : State' → Action' → Option State')
    (inv : State → Prop) (guard : State → Action → Prop) (picture : State → State')
    (label : Action → Action') : Prop where
  keep : ∀ state action next, inv state → guard state action → step state action = some next → inv next
  commute : ∀ state action, inv state → guard state action →
    (step state action).map picture = step' (picture state) (label action)

variable {picture : State → State'} {label : Action → Action'}

theorem Commutes.run (h : Commutes step step' inv guard picture label) {start : State} {actions : List Action}
    (hStart : inv start) (hMeets : Meets step guard start actions) :
    (run step start actions).map picture = run step' (picture start) (actions.map label) := by
  induction actions generalizing start with
  | nil => rfl
  | cons action rest ih =>
      have hStep := h.commute start action hStart hMeets.1
      rw [List.map_cons, Process.run, Process.run, ← hStep]
      cases hNext : step start action with
      | none => rfl
      | some next => exact ih (h.keep start action next hStart hMeets.1 hNext) (hMeets.2 next hNext)

/-- What the simpler system keeps, holds of the pictures throughout. -/
theorem Commutes.throughout (h : Commutes step step' inv guard picture label) {inv' : State' → Prop}
    {holds : State → Prop}
    (keep' : ∀ state action next, inv' state → step' state action = some next → inv' next)
    (conclude : ∀ state, inv state → inv' (picture state) → holds state) {start : State} {actions : List Action}
    (hStart : inv start) (hStart' : inv' (picture start)) (hMeets : Meets step guard start actions) :
    Throughout step holds start actions := by
  have hKeep (state : State) (action : Action) (next : State) (hBoth : inv state ∧ inv' (picture state))
      (hGuard : guard state action) (hStep : step state action = some next) :
      inv next ∧ inv' (picture next) := by
    have hCommute := h.commute state action hBoth.1 hGuard
    rw [hStep] at hCommute
    exact ⟨h.keep state action next hBoth.1 hGuard hStep, keep' _ _ _ hBoth.2 hCommute.symm⟩
  exact throughout_of_invariant hKeep (fun state hBoth => conclude state hBoth.1 hBoth.2) ⟨hStart, hStart'⟩ hMeets

end Process
