import Mathlib.Algebra.Order.Ring.Nat
import Mathlib.Data.List.Basic

/-! Finite runs of a transition system given by a partial step function. A guard
restricts the steps of a run; it reads the state before the step and the chosen
action, never the state after it. -/
namespace Process

/-- A condition on an optional machine integer is checked at that value, not by going
through all the values of its type. -/
instance (priority := 2000) decidableForallSome {α : Type} {holds : α → Prop} [DecidablePred holds]
    (value? : Option α) :
    Decidable (∀ value ∈ value?, holds value) :=
  Option.decidableForallMem value?

variable {State Action : Type}

/-- The state after a list of actions, if every one of them could be taken. -/
def run (step : State → Action → Option State) : State → List Action → Option State
  | start, [] => some start
  | start, action :: rest => (step start action).bind fun next => run step next rest

/-- Every step of the run satisfies the guard. -/
def Meets (step : State → Action → Option State) (guard : State → Action → Prop) :
    State → List Action → Prop
  | _, [] => True
  | start, action :: rest =>
      guard start action ∧ ∀ next, step start action = some next → Meets step guard next rest

/-- The predicate holds in every state the run passes through, both ends included. -/
def Throughout (step : State → Action → Option State) (holds : State → Prop) :
    State → List Action → Prop
  | start, [] => holds start
  | start, action :: rest =>
      holds start ∧ ∀ next, step start action = some next → Throughout step holds next rest

variable {step : State → Action → Option State} {guard : State → Action → Prop}

instance decidableMeets [∀ state action, Decidable (guard state action)] :
    ∀ start actions, Decidable (Meets step guard start actions)
  | _, [] => isTrue trivial
  | start, action :: rest =>
      match hStep : step start action with
      | none => decidable_of_iff (guard start action)
          ⟨fun h => ⟨h, fun _ hNext => nomatch hStep.symm.trans hNext⟩, And.left⟩
      | some next =>
          have := decidableMeets next rest
          decidable_of_iff (guard start action ∧ Meets step guard next rest)
            ⟨fun h => ⟨h.1, fun _ hNext => Option.some.inj (hStep.symm.trans hNext) ▸ h.2⟩,
              fun h => ⟨h.1, h.2 next hStep⟩⟩

theorem run_cons {start finish : State} {action : Action} {rest : List Action} :
    run step start (action :: rest) = some finish ↔
      ∃ next, step start action = some next ∧ run step next rest = some finish := by
  simp [run, Option.bind_eq_some_iff]

theorem run_append {start middle : State} {first : List Action} (second : List Action)
    (hFirst : run step start first = some middle) :
    run step start (first ++ second) = run step middle second := by
  induction first generalizing start with
  | nil =>
      cases hFirst
      rfl
  | cons action rest ih =>
      obtain ⟨next, hStep, hRest⟩ := run_cons.mp hFirst
      simp [run, hStep, ih hRest]

theorem run_append_iff {start finish : State} {first second : List Action} :
    run step start (first ++ second) = some finish ↔
      ∃ middle, run step start first = some middle ∧ run step middle second = some finish := by
  induction first generalizing start with
  | nil => simp [run]
  | cons action rest ih =>
      rw [List.cons_append, run, run]
      cases step start action with
      | none => simp
      | some next => exact ih

theorem run_append_singleton {start finish : State} {actions : List Action} {action : Action} :
    run step start (actions ++ [action]) = some finish ↔
      ∃ middle, run step start actions = some middle ∧ step middle action = some finish := by
  simp [run_append_iff, run]

/-- A step function that always answers has every run. -/
theorem exists_run (total : ∀ state action, ∃ next, step state action = some next) (start : State)
    (actions : List Action) : ∃ finish, run step start actions = some finish := by
  induction actions generalizing start with
  | nil => exact ⟨start, rfl⟩
  | cons action rest ih =>
      obtain ⟨next, hStep⟩ := total start action
      obtain ⟨finish, hRun⟩ := ih next
      exact ⟨finish, run_cons.mpr ⟨next, hStep, hRun⟩⟩

/-- What grows by at most one in a step is bounded along a short run. -/
theorem meets_of_growth {size : State → Nat} {bound : Nat}
    (grow : ∀ state action next, step state action = some next → size next ≤ size state + 1)
    {start : State} {actions : List Action} (h : size start + actions.length ≤ bound) :
    Meets step (fun state _ => size state < bound) start actions := by
  induction actions generalizing start with
  | nil => trivial
  | cons action rest ih =>
      rw [List.length_cons] at h
      refine ⟨by omega, fun next hStep => ih ?_⟩
      have hGrow := grow start action next hStep
      omega

theorem Meets.mono {weaker : State → Action → Prop} {start : State} {actions : List Action}
    (h : Meets step guard start actions)
    (implies : ∀ state action, guard state action → weaker state action) :
    Meets step weaker start actions := by
  induction actions generalizing start with
  | nil => trivial
  | cons action rest ih =>
      exact ⟨implies start action h.1, fun next hStep => ih (h.2 next hStep)⟩

theorem Meets.first {start : State} {first second : List Action}
    (h : Meets step guard start (first ++ second)) : Meets step guard start first := by
  induction first generalizing start with
  | nil => trivial
  | cons action rest ih => exact ⟨h.1, fun next hStep => ih (h.2 next hStep)⟩

theorem Meets.second {start middle : State} {first second : List Action}
    (h : Meets step guard start (first ++ second)) (hFirst : run step start first = some middle) :
    Meets step guard middle second := by
  induction first generalizing start with
  | nil =>
      cases hFirst
      exact h
  | cons action rest ih =>
      obtain ⟨next, hStep, hRest⟩ := run_cons.mp hFirst
      exact ih (h.2 next hStep) hRest

theorem meets_of_forall (h : ∀ state action, guard state action) :
    ∀ start actions, Meets step guard start actions
  | _, [] => trivial
  | start, action :: rest => ⟨h start action, fun next _ => meets_of_forall h next rest⟩

/-- A guard that only reads the action. -/
theorem meets_of_mem {allowed : Action → Prop} {actions : List Action} (h : ∀ action ∈ actions, allowed action)
    (start : State) : Meets step (fun _ action => allowed action) start actions := by
  induction actions generalizing start with
  | nil => trivial
  | cons action rest ih =>
      have hRest : ∀ other ∈ rest, allowed other := fun other hOther => h other (List.mem_cons_of_mem _ hOther)
      exact ⟨h action (List.mem_cons_self ..), fun next _ => ih hRest next⟩

theorem Meets.and {other : State → Action → Prop} {start : State} {actions : List Action}
    (h : Meets step guard start actions) (hOther : Meets step other start actions) :
    Meets step (fun state action => guard state action ∧ other state action) start actions := by
  induction actions generalizing start with
  | nil => trivial
  | cons action rest ih =>
      exact ⟨⟨h.1, hOther.1⟩, fun next hStep => ih (h.2 next hStep) (hOther.2 next hStep)⟩

/-- The invariant rule: what holds at the start and is kept by every guarded step
holds at the end of every guarded run. -/
theorem invariant_run {inv : State → Prop}
    (keep : ∀ state action next, inv state → guard state action →
      step state action = some next → inv next)
    {start finish : State} {actions : List Action} (hStart : inv start)
    (hMeets : Meets step guard start actions) (hRun : run step start actions = some finish) :
    inv finish := by
  induction actions generalizing start with
  | nil =>
      cases hRun
      exact hStart
  | cons action rest ih =>
      obtain ⟨next, hStep, hRest⟩ := run_cons.mp hRun
      exact ih (keep start action next hStart hMeets.1 hStep) (hMeets.2 next hStep) hRest

/-- The same for what is known of the state and the actions so far. -/
theorem history_run {inv : List Action → State → Prop}
    (keep : ∀ past state action next, inv past state → step state action = some next →
      inv (past ++ [action]) next)
    {past : List Action} {start finish : State} {actions : List Action} (hStart : inv past start)
    (hRun : run step start actions = some finish) : inv (past ++ actions) finish := by
  induction actions generalizing past start with
  | nil =>
      cases hRun
      rwa [List.append_nil]
  | cons action rest ih =>
      obtain ⟨next, hStep, hRest⟩ := run_cons.mp hRun
      rw [List.append_cons]
      exact ih (keep past start action next hStart hStep) hRest

/-- A property of steps that follows from an invariant holds of every step of the run. -/
theorem meets_of_invariant {inv : State → Prop} {property : State → Action → Prop}
    (keep : ∀ state action next, inv state → guard state action →
      step state action = some next → inv next)
    (conclude : ∀ state action, inv state → guard state action → property state action)
    {start : State} {actions : List Action} (hStart : inv start)
    (hMeets : Meets step guard start actions) : Meets step property start actions := by
  induction actions generalizing start with
  | nil => trivial
  | cons action rest ih =>
      refine ⟨conclude start action hStart hMeets.1, fun next hStep => ?_⟩
      exact ih (keep start action next hStart hMeets.1 hStep) (hMeets.2 next hStep)

/-- A property of states that follows from an invariant holds throughout the run. -/
theorem throughout_of_invariant {inv holds : State → Prop}
    (keep : ∀ state action next, inv state → guard state action →
      step state action = some next → inv next)
    (conclude : ∀ state, inv state → holds state) {start : State} {actions : List Action}
    (hStart : inv start) (hMeets : Meets step guard start actions) : Throughout step holds start actions := by
  induction actions generalizing start with
  | nil => exact conclude start hStart
  | cons action rest ih =>
      have hRest (next : State) (hStep : step start action = some next) : Throughout step holds next rest :=
        ih (keep start action next hStart hMeets.1 hStep) (hMeets.2 next hStep)
      exact ⟨conclude start hStart, hRest⟩

theorem Throughout.at_start {holds : State → Prop} {start : State} {actions : List Action}
    (h : Throughout step holds start actions) : holds start := by
  cases actions with
  | nil => exact h
  | cons action rest => exact h.1

theorem Throughout.at_finish {holds : State → Prop} {start finish : State}
    {actions : List Action} (h : Throughout step holds start actions)
    (hRun : run step start actions = some finish) : holds finish := by
  induction actions generalizing start with
  | nil =>
      cases hRun
      exact h
  | cons action rest ih =>
      obtain ⟨next, hStep, hRest⟩ := run_cons.mp hRun
      exact ih (h.2 next hStep) hRest

/-- A run that ends where the predicate holds has stayed there, or it has last come there by
one of its steps. -/
theorem last_entry {holds : State → Prop} {start finish : State} {actions : List Action}
    (hRun : run step start actions = some finish) (hFinish : holds finish) :
    Throughout step holds start actions ∨ ∃ first action second before after,
      actions = first ++ action :: second ∧ run step start first = some before ∧ ¬ holds before ∧
        step before action = some after ∧ Throughout step holds after second := by
  induction actions generalizing start with
  | nil =>
      cases hRun
      exact Or.inl hFinish
  | cons action rest ih =>
      obtain ⟨next, hStep, hRest⟩ := run_cons.mp hRun
      rcases ih hRest with hStays | ⟨first, entry, second, before, after, rfl, hFirst, hBefore, hEntry, hAfter⟩
      · by_cases hStart : holds start
        · exact Or.inl ⟨hStart, fun other hOther => Option.some.inj (hStep.symm.trans hOther) ▸ hStays⟩
        · exact Or.inr ⟨[], action, rest, start, next, rfl, rfl, hStart, hStep, hStays⟩
      · exact Or.inr ⟨action :: first, entry, second, before, after, rfl, run_cons.mpr ⟨next, hStep, hFirst⟩, hBefore,
          hEntry, hAfter⟩

/-- An exact guard: if, under an invariant of the guarded runs, a step keeps the property
precisely when the guard allows it, then the property holds throughout an allowed run
precisely when every step of the run meets the guard. -/
theorem throughout_iff_meets {inv holds : State → Prop} {allowed : State → Action → Prop}
    (keep : ∀ state action next, inv state → allowed state action → guard state action →
      step state action = some next → inv next)
    (exact_step : ∀ state action next, inv state → allowed state action → holds state →
      step state action = some next → (holds next ↔ guard state action))
    {start finish : State} {actions : List Action} (hInv : inv start) (hStart : holds start)
    (hAllowed : Meets step allowed start actions) (hRun : run step start actions = some finish) :
    Throughout step holds start actions ↔ Meets step guard start actions := by
  induction actions generalizing start with
  | nil => exact ⟨fun _ => trivial, fun _ => hStart⟩
  | cons action rest ih =>
      obtain ⟨next, hStep, hRest⟩ := run_cons.mp hRun
      have hExact := exact_step start action next hInv hAllowed.1 hStart hStep
      have only (other : State) (h : step start action = some other) : other = next :=
        Option.some.inj (h.symm.trans hStep)
      constructor
      · intro h
        have hHolds := (h.2 next hStep).at_start
        have hGuard := hExact.mp hHolds
        have hNext := keep start action next hInv hAllowed.1 hGuard hStep
        refine ⟨hGuard, fun other hOther => ?_⟩
        rw [only other hOther]
        exact (ih hNext hHolds (hAllowed.2 next hStep) hRest).mp (h.2 next hStep)
      · intro h
        have hHolds := hExact.mpr h.1
        have hNext := keep start action next hInv hAllowed.1 h.1 hStep
        refine ⟨hStart, fun other hOther => ?_⟩
        rw [only other hOther]
        exact (ih hNext hHolds (hAllowed.2 next hStep) hRest).mpr (h.2 next hStep)

/-- The same when every run is allowed and every step keeps the invariant. -/
theorem throughout_iff_guarded {inv holds : State → Prop}
    (keep : ∀ state action next, inv state → step state action = some next → inv next)
    (exact_step : ∀ state action next, inv state → holds state → step state action = some next →
      (holds next ↔ guard state action))
    {start finish : State} {actions : List Action} (hInv : inv start) (hStart : holds start)
    (hRun : run step start actions = some finish) :
    Throughout step holds start actions ↔ Meets step guard start actions :=
  have hKeep (state : State) (action : Action) (next : State) (h : inv state) (_ : True) (_ : guard state action)
      (hStep : step state action = some next) : inv next := keep state action next h hStep
  throughout_iff_meets hKeep (fun state action next h _ => exact_step state action next h) hInv hStart
    (meets_of_forall (fun _ _ => trivial) start actions) hRun

/-- A property that no step restores holds throughout the run when it holds at the end. -/
theorem throughout_iff_at_finish {inv holds : State → Prop}
    (keep : ∀ state action next, inv state → step state action = some next → inv next)
    (back : ∀ state action next, inv state → step state action = some next → holds next → holds state)
    {start finish : State} {actions : List Action} (hInv : inv start)
    (hRun : run step start actions = some finish) : Throughout step holds start actions ↔ holds finish := by
  refine ⟨fun h => h.at_finish hRun, fun hFinish => ?_⟩
  induction actions generalizing start with
  | nil =>
      cases hRun
      exact hFinish
  | cons action rest ih =>
      obtain ⟨next, hStep, hRest⟩ := run_cons.mp hRun
      have hNext := ih (keep start action next hInv hStep) hRest
      refine ⟨back start action next hInv hStep hNext.at_start, fun other hOther => ?_⟩
      rw [Option.some.inj (hOther.symm.trans hStep)]
      exact hNext

end Process
