import Mathlib.Data.List.Infix
import Mathlib.Logic.Function.Basic
import SwarmAutoscaler.Process.Run

/-! Which containers are monitored. One goroutine turns the events of Docker into
notifications on two buffered channels, another one receives from either channel. -/
namespace Containers

open Process

/-- The two actions of container events that the manager of containers looks at. -/
inductive EventAction where
  | start
  | die
  deriving DecidableEq, Repr

/-- The opposite action, which undoes this one. -/
def EventAction.other : EventAction → EventAction
  | .start => .die
  | .die => .start

/-- An event of a container whose ownership check succeeds. -/
structure Event where
  action : EventAction
  id : String
  deriving DecidableEq, Repr

/-- `events` are those that `ListenForEvents` has not sent on yet and `running` the containers
of `GetRunningContainers` that `main` has not come to; `chan` is `StartChan` and `StopChan`.
A monitoring context is a number, and `contexts` have been made. -/
structure State where
  events : List Event
  running : List String
  chan : EventAction → List String := fun _ => []
  monitoringCtxMap : String → Option Nat := fun _ => none
  contexts : Nat := 0
  cancelled : List Nat := []

/-- The buffer of each of the two channels between the listener of events and the loop that
handles them. -/
def capacity : Nat := 10

/-- Nothing happens for a container that is in the map; otherwise it gets a context of its
own. -/
def State.startMonitoring (s : State) (containerID : String) : State :=
  match s.monitoringCtxMap containerID with
  | some _ => s
  | none =>
      { s with
        monitoringCtxMap := Function.update s.monitoringCtxMap containerID (some s.contexts)
        contexts := s.contexts + 1 }

/-- The context of the container is cancelled and taken out of the map, if there is one. -/
def State.stopMonitoring (s : State) (containerID : String) : State :=
  match s.monitoringCtxMap containerID with
  | some ctx =>
      { s with
        monitoringCtxMap := Function.update s.monitoringCtxMap containerID none
        cancelled := s.cancelled ++ [ctx] }
  | none => s

/-- The two cases of the `select` in `main`. -/
def State.handle (s : State) (containerID : String) : EventAction → State
  | .start => s.startMonitoring containerID
  | .die => s.stopMonitoring containerID

/-- The listener passes the next event on, the loop begins, or it receives from one of its
two channels. -/
inductive Action where
  | send
  | begin
  | receive (action : EventAction)
  deriving DecidableEq, Repr

/-- A send waits for room in its channel; `main` receives when it has come to all the
containers that were running at the start. -/
def step (s : State) : Action → Option State
  | .send =>
      match s.events with
      | [] => none
      | event :: rest =>
          if (s.chan event.action).length < capacity then
            some { s with
              events := rest
              chan := Function.update s.chan event.action (s.chan event.action ++ [event.id]) }
          else none
  | .begin =>
      match s.running with
      | [] => none
      | containerID :: rest => some { s.startMonitoring containerID with running := rest }
  | .receive action =>
      if s.running = [] then
        match s.chan action with
        | [] => none
        | containerID :: rest =>
            some (State.handle { s with chan := Function.update s.chan action rest } containerID action)
      else none

/-- Before the first event, with the containers that run already. -/
def start (events : List Event) (running : List String) : State := { events := events, running := running }

/-- The last thing that happens to the container. -/
def lastAction (events : List Event) (containerID : String) : Option EventAction :=
  ((events.filter fun event => event.id = containerID).getLast?).map Event.action

/-- Everything has been consumed. -/
structure Consumed (s : State) : Prop where
  events : s.events = []
  running : s.running = []
  chan : ∀ action, s.chan action = []

/-- Monitored is what started last, and what was running and has no event. -/
def Settled (events : List Event) (running : List String) (s : State) : Prop :=
  ∀ containerID, (s.monitoringCtxMap containerID).isSome = true ↔
    lastAction events containerID = some .start ∨ lastAction events containerID = none ∧ containerID ∈ running

/-- The monitored set does not depend on the order in which the channels are read. -/
def AlwaysSettled : Prop :=
  ∀ (events : List Event) (running : List String) (actions : List Action) (s : State),
    run step (start events running) actions = some s → Consumed s → Settled events running s

/-- A container starts and dies; the death is received first. -/
theorem not_alwaysSettled : ¬ AlwaysSettled := by
  intro h
  have hSettled := h [⟨.start, "web.1"⟩, ⟨.die, "web.1"⟩] [] [.send, .send, .receive .die, .receive .start] _ rfl
    ⟨rfl, rfl, fun action => by cases action <;> rfl⟩
  exact absurd ((hSettled "web.1").mp rfl) (by decide)

/-- When the notification of the last event of a container is received, none of that
container waits in the other channel. -/
def ReadsLastLast (events : List Event) (s : State) : Action → Prop
  | .receive action => ∀ containerID rest, s.chan action = containerID :: rest →
      lastAction events containerID = some action → containerID ∉ rest →
        (∀ event ∈ s.events, event.id ≠ containerID) → containerID ∉ s.chan action.other
  | _ => True

/-- The notifications of one kind that are still to be received. -/
def State.pending (s : State) (action : EventAction) : List String :=
  s.chan action ++ (s.events.filter fun event => event.action = action).map Event.id

section Steps

variable {s t : State} {action other : EventAction} {containerID : String}

/-- What a step does. -/
inductive Case (s t : State) : Action → Prop where
  | send (events : t.events <:+ s.events) (running : t.running = s.running)
      (pending : ∀ action, t.pending action = s.pending action)
      (monitored : t.monitoringCtxMap = s.monitoringCtxMap) : Case s t .send
  | begin {containerID : String} (events : t.events = s.events) (running : s.running = containerID :: t.running)
      (pending : ∀ action, t.pending action = s.pending action)
      (monitored : ∀ other, (t.monitoringCtxMap other).isSome = true ↔
        other = containerID ∨ (s.monitoringCtxMap other).isSome = true) : Case s t .begin
  | receive {action : EventAction} {containerID : String} {rest : List String} (events : t.events = s.events)
      (running : s.running = [] ∧ t.running = []) (chan : s.chan action = containerID :: rest)
      (left : t.chan = Function.update s.chan action rest)
      (monitored : (t.monitoringCtxMap containerID).isSome = true ↔ action = .start)
      (others : ∀ other, other ≠ containerID → t.monitoringCtxMap other = s.monitoringCtxMap other) :
      Case s t (.receive action)

@[simp] theorem handle_start : s.handle containerID .start = s.startMonitoring containerID := rfl

@[simp] theorem handle_die : s.handle containerID .die = s.stopMonitoring containerID := rfl

theorem frame_startMonitoring : (s.startMonitoring containerID).events = s.events ∧
    (s.startMonitoring containerID).running = s.running ∧ (s.startMonitoring containerID).chan = s.chan := by
  unfold State.startMonitoring
  split <;> exact ⟨rfl, rfl, rfl⟩

theorem frame_handle : (s.handle containerID action).events = s.events ∧
    (s.handle containerID action).running = s.running ∧ (s.handle containerID action).chan = s.chan := by
  cases action with
  | start => exact frame_startMonitoring
  | die =>
      rw [handle_die, State.stopMonitoring]
      split <;> exact ⟨rfl, rfl, rfl⟩

theorem monitored_handle :
    ((s.handle containerID action).monitoringCtxMap containerID).isSome = true ↔ action = .start := by
  cases action with
  | start =>
      rw [handle_start, State.startMonitoring]
      split
      · next hKnown => simp [hKnown]
      · simp
  | die =>
      rw [handle_die, State.stopMonitoring]
      split
      · simp
      · next hUnknown => simp [hUnknown]

theorem others_handle {other : String} (hOther : other ≠ containerID) :
    (s.handle containerID action).monitoringCtxMap other = s.monitoringCtxMap other := by
  cases action with
  | start =>
      rw [handle_start, State.startMonitoring]
      split
      · rfl
      · exact Function.update_of_ne hOther ..
  | die =>
      rw [handle_die, State.stopMonitoring]
      split
      · exact Function.update_of_ne hOther ..
      · rfl

theorem monitored_startMonitoring {other : String} :
    ((s.startMonitoring containerID).monitoringCtxMap other).isSome = true ↔
      other = containerID ∨ (s.monitoringCtxMap other).isSome = true := by
  by_cases hSame : other = containerID
  · subst hSame
    have hStarted := @monitored_handle s .start other
    simpa using hStarted
  · have hOthers := @others_handle s .start containerID other hSame
    rw [handle_start] at hOthers
    simp [hSame, hOthers]

theorem case_of_step {action : Action} (h : step s action = some t) : Case s t action := by
  cases action with
  | send =>
      simp only [step] at h
      split at h
      · cases h
      · next event rest hEvents =>
          split at h
          · cases h
            refine .send (hEvents ▸ List.suffix_cons event rest) rfl (fun action => ?_) rfl
            unfold State.pending
            by_cases hSame : action = event.action
            · subst hSame
              simp [hEvents]
            · have hOther : ¬ event.action = action := fun h => hSame h.symm
              simp [hEvents, hSame, hOther]
          · cases h
  | begin =>
      simp only [step] at h
      split at h
      · cases h
      · next containerID rest hRunning =>
          cases h
          obtain ⟨hEvents, _, hChan⟩ := @frame_startMonitoring s containerID
          refine .begin hEvents hRunning (fun action => ?_) fun other => monitored_startMonitoring
          simp only [State.pending, hEvents, hChan]
  | receive action =>
      simp only [step] at h
      split at h
      · next hRunning =>
          split at h
          · cases h
          · next containerID rest hChan =>
              cases h
              obtain ⟨hEvents, hLeft, hQueue⟩ :=
                @frame_handle { s with chan := Function.update s.chan action rest } action containerID
              exact .receive hEvents ⟨hRunning, hLeft.trans hRunning⟩ hChan hQueue monitored_handle
                fun other hOther => others_handle hOther
      · cases h

end Steps

section LastAction

variable {events rest : List Event} {event : Event} {containerID : String} {action : EventAction}

theorem lastAction_ne_none (hMem : event ∈ events) : lastAction events event.id ≠ none := by
  have hEvent : ∃ other ∈ events, other.id = event.id := ⟨event, hMem, rfl⟩
  simpa [lastAction] using hEvent

/-- The last event is one of the events. -/
theorem mem_of_lastAction (h : lastAction events containerID = some action) :
    containerID ∈ (events.filter fun event => event.action = action).map Event.id := by
  obtain ⟨event, hLast, rfl⟩ := Option.map_eq_some_iff.mp h
  obtain ⟨hMem, hId⟩ := List.mem_filter.mp (List.mem_of_getLast? hLast)
  exact List.mem_map.mpr ⟨event, List.mem_filter.mpr ⟨hMem, by simp⟩, by simpa using hId⟩

/-- If a container has an event left, its last one is left. -/
theorem lastAction_of_suffix (hSuffix : rest <:+ events) (hMem : event ∈ rest) :
    lastAction rest event.id = lastAction events event.id := by
  obtain ⟨before, rfl⟩ := hSuffix
  have hFilter : (rest.filter fun other => other.id = event.id) ≠ [] :=
    List.ne_nil_of_mem (List.mem_filter.mpr ⟨hMem, by simp⟩)
  rw [lastAction, lastAction, List.filter_append, List.getLast?_append_of_ne_nil _ hFilter]

end LastAction

/-- What holds of every state on the way. -/
structure Faithful (events : List Event) (running : List String) (s : State) : Prop where
  suffix : s.events <:+ events
  early : s.running ≠ [] → ∀ action, s.pending action =
    (events.filter fun event => event.action = action).map Event.id
  known : ∀ action, ∀ containerID ∈ s.pending action, lastAction events containerID ≠ none
  begun : ∃ begun, running = begun ++ s.running ∧ ∀ containerID, lastAction events containerID = none →
    ((s.monitoringCtxMap containerID).isSome = true ↔ containerID ∈ begun)

/-- Once the last notification of a container is received, the container is treated as that
one says, and nothing is left to change it. -/
def Caught (action : EventAction) (containerID : String) (s : State) : Prop :=
  containerID ∉ s.pending action →
    ((s.monitoringCtxMap containerID).isSome = true ↔ action = .start) ∧ containerID ∉ s.pending action.other

/-- Of every container the last event has left its mark. -/
def AllCaught (events : List Event) (s : State) : Prop :=
  ∀ containerID action, lastAction events containerID = some action → Caught action containerID s

section Invariant

variable {events : List Event} {running : List String} {s t : State} {action : Action}

theorem faithful_start : Faithful events running (start events running) where
  suffix := List.suffix_refl events
  early _ _ := rfl
  known action containerID hMem := by
    obtain ⟨event, hEvent, rfl⟩ := List.mem_map.mp hMem
    exact lastAction_ne_none (List.mem_of_mem_filter hEvent)
  begun := ⟨[], rfl, fun _ _ => by simp [start]⟩

/-- Receiving takes one notification from one of the channels. -/
theorem pending_receive {action other : EventAction} {containerID : String} {rest : List String}
    (hEvents : t.events = s.events) (hChan : s.chan action = containerID :: rest)
    (hLeft : t.chan = Function.update s.chan action rest) :
    s.pending action = containerID :: t.pending action ∧ (other ≠ action → t.pending other = s.pending other) := by
  constructor
  · simp [State.pending, hEvents, hChan, hLeft]
  · intro hOther
    simp [State.pending, hEvents, hLeft, hOther]

theorem subset_pending {action : Action} (h : Case s t action) (other : EventAction) :
    t.pending other ⊆ s.pending other := by
  cases h with
  | send _ _ hPending => rw [hPending]; exact List.Subset.refl _
  | begin _ _ hPending => rw [hPending]; exact List.Subset.refl _
  | @receive action containerID rest hEvents _ hChan hLeft =>
      obtain ⟨hOwn, hOther⟩ := @pending_receive s t action other containerID rest hEvents hChan hLeft
      by_cases hSame : other = action
      · rw [hSame, hOwn]
        exact List.subset_cons_self ..
      · rw [hOther hSame]
        exact List.Subset.refl _

theorem Faithful.step (h : Faithful events running s) (hStep : Containers.step s action = some t) :
    Faithful events running t := by
  have hCase := case_of_step hStep
  have hKnown : ∀ action, ∀ containerID ∈ t.pending action, lastAction events containerID ≠ none :=
    fun action containerID hMem => h.known action containerID (subset_pending hCase action hMem)
  obtain ⟨begun, hBegun, hMonitored⟩ := h.begun
  cases hCase with
  | send hEvents hRunning hPending hSame =>
      refine ⟨hEvents.trans h.suffix, fun hSome action => ?_, hKnown, begun, by rwa [hRunning], ?_⟩
      · rw [hPending]
        exact h.early (hRunning ▸ hSome) action
      · rw [hSame]
        exact hMonitored
  | @begin containerID hEvents hRunning hPending hStarted =>
      refine ⟨hEvents ▸ h.suffix, fun _ action => ?_, hKnown,
        begun ++ [containerID], by simp [hBegun, hRunning], ?_⟩
      · rw [hPending]
        exact h.early (by simp [hRunning]) action
      · intro other hNone
        rw [hStarted, hMonitored other hNone, List.mem_append, List.mem_singleton, or_comm]
  | @receive action containerID rest hEvents hRunning hChan hLeft _ hOthers =>
      refine ⟨hEvents ▸ h.suffix, fun hSome => absurd hRunning.2 hSome, hKnown,
        begun, by rw [hBegun, hRunning.1, hRunning.2], ?_⟩
      intro other hNone
      have hMem : containerID ∈ s.pending action := by simp [State.pending, hChan]
      have hOther : other ≠ containerID := fun hSame => h.known action containerID hMem (hSame ▸ hNone)
      rw [hOthers other hOther]
      exact hMonitored other hNone

theorem caught_congr {action : EventAction} {containerID : String}
    (hPending : ∀ action, containerID ∈ t.pending action ↔ containerID ∈ s.pending action)
    (hMonitored : t.monitoringCtxMap containerID = s.monitoringCtxMap containerID) :
    Caught action containerID t ↔ Caught action containerID s := by
  simp only [Caught, hPending, hMonitored]

/-- Before anything is received, every container still has the notification of its last event. -/
theorem allCaught_of_early (h : ∀ action, s.pending action =
      (events.filter fun event => event.action = action).map Event.id) :
    AllCaught events s := by
  intro containerID action hLast hGone
  rw [h action] at hGone
  exact absurd (mem_of_lastAction hLast) hGone

/-- The other notification of a container says the opposite. -/
theorem start_iff_other {action : EventAction} : action.other = .start ↔ action ≠ .start := by
  cases action <;> decide

theorem other_ne {action : EventAction} : action.other ≠ action := by
  cases action <;> decide

theorem eq_other_of_ne {action other : EventAction} (h : other ≠ action) : other = action.other := by
  cases action <;> cases other <;> first | rfl | exact absurd rfl h

theorem other_other {action : EventAction} : action.other.other = action := by
  cases action <;> rfl

/-- What receiving a notification does for its own container. -/
theorem caught_receive {action last : EventAction} {containerID : String} {rest : List String}
    (hEvents : t.events = s.events) (hChan : s.chan action = containerID :: rest)
    (hLeft : t.chan = Function.update s.chan action rest)
    (hMonitored : (t.monitoringCtxMap containerID).isSome = true ↔ action = .start) :
    Caught last containerID t ↔ if last = action then containerID ∉ t.pending action →
      containerID ∉ s.pending action.other
      else containerID ∈ s.pending last := by
  have hPending := fun other => @pending_receive s t action other containerID rest hEvents hChan hLeft
  split
  · next hSame =>
      subst hSame
      simp only [Caught, hMonitored, true_and, (hPending _).2 other_ne]
  · next hOther =>
      obtain rfl := eq_other_of_ne hOther
      simp only [Caught, hMonitored, (hPending _).2 hOther, start_iff_other]
      constructor
      · intro h
        by_contra hGone
        exact absurd (h hGone).1 (by tauto)
      · exact fun hMem hGone => absurd hMem hGone

/-- For the other containers nothing changes. -/
theorem caught_receive_other {action last : EventAction} {containerID other : String} {rest : List String}
    (hEvents : t.events = s.events) (hChan : s.chan action = containerID :: rest)
    (hLeft : t.chan = Function.update s.chan action rest) (hOther : other ≠ containerID)
    (hSame : t.monitoringCtxMap other = s.monitoringCtxMap other) : Caught last other t ↔ Caught last other s := by
  refine caught_congr (fun kind => ?_) hSame
  obtain ⟨hOwn, hApart⟩ := @pending_receive s t action kind containerID rest hEvents hChan hLeft
  by_cases hKind : kind = action
  · rw [hKind, hOwn, List.mem_cons, or_iff_right hOther]
  · rw [hApart hKind]

/-- A container without its own last notification has no event left. -/
theorem no_event_of_not_mem {action : EventAction} {containerID : String} (hFaithful : Faithful events running s)
    (hLast : lastAction events containerID = some action) (hGone : containerID ∉ s.pending action) :
    ∀ event ∈ s.events, event.id ≠ containerID := by
  rintro event hMem rfl
  rw [← lastAction_of_suffix hFaithful.suffix hMem] at hLast
  exact hGone (List.mem_append_right _ (mem_of_lastAction hLast))

theorem mem_pending_iff {action : EventAction} {containerID : String}
    (hNone : ∀ event ∈ s.events, event.id ≠ containerID) :
    containerID ∈ s.pending action ↔ containerID ∈ s.chan action := by
  rw [State.pending, List.mem_append, or_iff_left]
  rintro hMem
  obtain ⟨event, hEvent, hId⟩ := List.mem_map.mp hMem
  exact hNone event (List.mem_of_mem_filter hEvent) hId

theorem allCaught_step_iff (hFaithful : Faithful events running s) (hCaught : AllCaught events s)
    (hStep : Containers.step s action = some t) : AllCaught events t ↔ ReadsLastLast events s action := by
  have hNext := hFaithful.step hStep
  cases case_of_step hStep with
  | send _ _ hPending hSame =>
      refine iff_of_true (fun containerID last hLast => ?_) trivial
      exact (caught_congr (fun action => by rw [hPending]) (congrFun hSame containerID)).mpr
        (hCaught containerID last hLast)
  | begin _ hRunning hPending _ =>
      refine iff_of_true (allCaught_of_early fun action => ?_) trivial
      rw [hPending]
      exact hFaithful.early (by simp [hRunning]) action
  | @receive action containerID rest hEvents hRunning hChan hLeft hMonitored hOthers =>
      have hLeftOwn : t.chan action = rest := by rw [hLeft, Function.update_self]
      constructor
      · intro hAll other rest' hChan' hLast hRest hNone
        cases hChan.symm.trans hChan'
        have hOwn := (caught_receive hEvents hChan hLeft hMonitored).mp (hAll containerID action hLast)
        rw [if_pos rfl, mem_pending_iff hNone, mem_pending_iff (hEvents ▸ hNone), hLeftOwn] at hOwn
        exact hOwn hRest
      · intro hReads other last hLast
        by_cases hOther : other = containerID
        · subst hOther
          rw [caught_receive hEvents hChan hLeft hMonitored]
          split
          · next hSame =>
              subst hSame
              intro hGone
              have hNone := no_event_of_not_mem hNext hLast hGone
              rw [mem_pending_iff hNone, hLeftOwn] at hGone
              rw [mem_pending_iff (hEvents ▸ hNone)]
              exact hReads other rest hChan hLast hGone (hEvents ▸ hNone)
          · next hDiffers =>
              by_contra hGone
              have hOpposite := (hCaught other last hLast hGone).2
              rw [eq_other_of_ne hDiffers, other_other, State.pending, hChan] at hOpposite
              exact hOpposite (List.mem_append_left _ List.mem_cons_self)
        · exact (caught_receive_other hEvents hChan hLeft hOther (hOthers other hOther)).mpr
            (hCaught other last hLast)

/-- What is missed is not caught later. -/
theorem allCaught_back (hFaithful : Faithful events running s) (hStep : Containers.step s action = some t)
    (hCaught : AllCaught events t) : AllCaught events s := by
  cases case_of_step hStep with
  | send _ _ hPending hSame =>
      intro containerID last hLast
      exact (caught_congr (fun action => by rw [hPending]) (congrFun hSame containerID)).mp
        (hCaught containerID last hLast)
  | begin _ hRunning _ _ => exact allCaught_of_early (hFaithful.early (by simp [hRunning]))
  | @receive action containerID rest hEvents hRunning hChan hLeft hMonitored hOthers =>
      intro other last hLast
      by_cases hOther : other = containerID
      · subst hOther
        have hOwn := (caught_receive hEvents hChan hLeft hMonitored).mp (hCaught other last hLast)
        have hMem : other ∈ s.pending action := by simp [State.pending, hChan]
        split at hOwn
        · next hSame => exact fun hGone => absurd (hSame ▸ hMem) hGone
        · exact fun hGone => absurd hOwn hGone
      · exact (caught_receive_other hEvents hChan hLeft hOther (hOthers other hOther)).mp
          (hCaught other last hLast)

/-- When everything is consumed, the set is right if every container was caught. -/
theorem settled_iff_allCaught (hFaithful : Faithful events running s) (hConsumed : Consumed s) :
    Settled events running s ↔ AllCaught events s := by
  have hNone (action : EventAction) : s.pending action = [] := by
    simp [State.pending, hConsumed.chan, hConsumed.events]
  obtain ⟨begun, hBegun, hMonitored⟩ := hFaithful.begun
  rw [hConsumed.running, List.append_nil] at hBegun
  subst hBegun
  constructor
  · intro hSettled containerID action hLast _
    have hSet := hSettled containerID
    simp only [hLast, Option.some.injEq, reduceCtorEq, false_and, or_false] at hSet
    exact ⟨hSet, by simp [hNone]⟩
  · intro hCaught containerID
    cases hLast : lastAction events containerID with
    | none => simpa using hMonitored containerID hLast
    | some action => simpa using (hCaught containerID action hLast (by simp [hNone])).1

end Invariant

/-- The monitored set is the right one exactly when the last notification of a container is
always received after the others of that container. -/
theorem settled_iff_readsLastLast {events : List Event} {running : List String} {actions : List Action} {s : State}
    (hRun : run step (start events running) actions = some s) (hConsumed : Consumed s) :
    Settled events running s ↔ Meets step (ReadsLastLast events) (start events running) actions := by
  have hKeep (s : State) (action : Action) (t : State) (h : Faithful events running s)
    (hStep : step s action = some t) :
      Faithful events running t := h.step hStep
  have hStart : Faithful events running (start events running) := faithful_start
  have hFinish : Faithful events running s :=
    invariant_run (fun s action t h _ hStep => hKeep s action t h hStep) hStart
      (meets_of_forall (fun _ _ => trivial) _ _ : Meets step (fun _ _ => True) _ _) hRun
  rw [settled_iff_allCaught hFinish hConsumed,
    ← throughout_iff_at_finish hKeep (fun s action t h hStep hCaught => allCaught_back h hStep hCaught) hStart
      hRun]
  exact throughout_iff_guarded hKeep (fun s action t h hCaught hStep => allCaught_step_iff h hCaught hStep) hStart
    (allCaught_of_early fun _ => rfl) hRun

/-- The start is received before the death. -/
theorem settled_iff_readsLastLast_ordered : ∃ s, run step (start [⟨.start, "web.1"⟩, ⟨.die, "web.1"⟩] [])
    [.send, .send, .receive .start, .receive .die] = some s ∧
      Settled [⟨.start, "web.1"⟩, ⟨.die, "web.1"⟩] [] s := by
  have hRun : run step (start [⟨.start, "web.1"⟩, ⟨.die, "web.1"⟩] [])
    [.send, .send, .receive .start, .receive .die] =
    some _ := rfl
  refine ⟨_, hRun, (settled_iff_readsLastLast hRun ⟨rfl, rfl, fun action => by cases action <;> rfl⟩).mpr ?_⟩
  refine ⟨trivial, fun next hNext => ⟨trivial,
    fun next' hNext' => ⟨?_, fun last hLast => ⟨?_, fun _ _ => trivial⟩⟩⟩⟩
  · cases hNext
    cases hNext'
    intro containerID rest hChan hStart
    cases hChan
    exact absurd hStart (by decide)
  · cases hNext
    cases hNext'
    cases hLast
    intro containerID rest hChan
    cases hChan
    exact fun _ _ _ => List.not_mem_nil

end Containers
