import SwarmAutoscaler.Monitoring.Containers
import SwarmAutoscaler.Monitoring.Thresholds

/-! The table of monitored containers against the Monitor goroutines that run. The event
handler alone writes the table, and a Monitor can return by itself. -/
namespace Lifecycle

open Cluster (SwarmNodeInfo getManagerNode)
open Containers (Event EventAction capacity lastAction)
open Process
open Resources (Asks CPUResource ConcReqResource MemoryResource Op Progress Resource Signalled Ticked read?
  smoothly)

/-- What `main` passes to every Monitor, and the containers that this node owns. -/
structure Settings where
  resource : Resource
  node : SwarmNodeInfo
  collectionPeriod : Int64
  owned : String → Bool

/-- A goroutine that runs `Monitor`. -/
structure Monitor where
  containerID : String
  progress : Progress := .starting
  deriving DecidableEq

/-- A context is the number of its Monitor in `monitors`. `listed` are the containers of
`GetRunningContainers`, and `running` those that `main` has not come to. The events that
`ListenForEvents` has handled, and those that it has sent on, are kept as well. -/
structure State where
  listed : List String
  running : List String
  chan : EventAction → List String := fun _ => []
  monitoringCtxMap : String → Option Nat := fun _ => none
  monitors : List Monitor := []
  cancelled : List Nat := []
  exited : Bool := false
  delivered : List Event := []
  notified : List Event := []

namespace State

/-- A container that is not in the map gets a context and a Monitor of its own. -/
def startMonitoring (s : State) (containerID : String) : State :=
  match s.monitoringCtxMap containerID with
  | some _ => s
  | none =>
      { s with
        monitoringCtxMap := Function.update s.monitoringCtxMap containerID (some s.monitors.length)
        monitors := s.monitors ++ [⟨containerID, .starting⟩] }

/-- The context of the container is cancelled and taken out of the map; the Monitor itself
runs on until it sees that. -/
def stopMonitoring (s : State) (containerID : String) : State :=
  match s.monitoringCtxMap containerID with
  | some ctx =>
      { s with
        monitoringCtxMap := Function.update s.monitoringCtxMap containerID none
        cancelled := s.cancelled ++ [ctx] }
  | none => s

/-- The two cases of the `select` in `main`. -/
def handle (s : State) (containerID : String) : EventAction → State
  | .start => s.startMonitoring containerID
  | .die => s.stopMonitoring containerID

end State

/-- `deliver` is one event in `ListenForEvents`, whose ownership check may fail; `turn` is
a turn of a Monitor, with what its calls and its `select` answer. -/
inductive Action where
  | deliver (event : Event) (fails : Bool)
  | begin
  | receive (action : EventAction)
  | turn (ctx : Nat) (answers : (op : Op) → op.Answer)

/-- One of the two has received from the `Done` channel of the context. -/
def isDone : Ticked → Signalled → Bool
  | .done, _ | _, .done => true
  | _, _ => false

/-- A `select` of the turn receives from `Done`. -/
def receivesDone (answers : (op : Op) → op.Answer) : Bool := isDone (answers .selectTick) (answers .selectSignal)

/-- Where a Monitor stands after a turn with these answers. -/
def nextProgress (settings : Settings) (monitor : Monitor) (answers : (op : Op) → op.Answer) : Progress :=
  ((settings.resource.turn settings.node monitor.containerID settings.collectionPeriod monitor.progress).replay
    answers).2

/-- The process is over once a Monitor has called `log.Fatalf`. -/
def step (settings : Settings) (s : State) (action : Action) : Option State :=
  if s.exited then none
  else
    match action with
    | .deliver event fails =>
        if fails || !settings.owned event.id then some { s with delivered := s.delivered ++ [event] }
        else if (s.chan event.action).length < capacity then
          some { s with
            delivered := s.delivered ++ [event]
            notified := s.notified ++ [event]
            chan := Function.update s.chan event.action (s.chan event.action ++ [event.id]) }
        else none
    | .begin =>
        match s.running with
        | [] => none
        | containerID :: rest => some { s.startMonitoring containerID with running := rest }
    | .receive action =>
        if s.running = [] then
          match s.chan action with
          | [] => none
          | containerID :: rest =>
              some (State.handle { s with chan := Function.update s.chan action rest } containerID action)
        else none
    | .turn ctx answers =>
        match s.monitors[ctx]? with
        | none => none
        | some monitor =>
            if monitor.progress = .returned ∨ (receivesDone answers = true ∧ ctx ∉ s.cancelled) then none
            else some { s with
              monitors := s.monitors.set ctx { monitor with progress := nextProgress settings monitor answers }
              exited := nextProgress settings monitor answers = .exited }

/-- The running containers, each with whether its ownership check fails. -/
def getRunningContainers (settings : Settings) (containers : List (String × Bool)) : List String :=
  (containers.filter fun container => !container.2 && settings.owned container.1).map Prod.fst

/-- The state after the containers that run already have been listed, none of which is
monitored yet. -/
def start (settings : Settings) (containers : List (String × Bool)) : State where
  listed := getRunningContainers settings containers
  running := getRunningContainers settings containers

/-- The goroutine of the context is a Monitor of the container that has not returned. -/
def Runs (s : State) (containerID : String) (ctx : Nat) : Prop :=
  ∃ progress, s.monitors[ctx]? = some ⟨containerID, progress⟩ ∧ progress ≠ .returned

/-- All that was delivered has been handled, and every Monitor that was cancelled has returned. -/
structure Processed (s : State) : Prop where
  running : s.running = []
  chan : ∀ action, s.chan action = []
  stopped : ∀ ctx ∈ s.cancelled, ∀ containerID, ¬ Runs s containerID ctx
  alive : s.exited = false

/-- The table names the containers with exactly one Monitor, and no Monitor runs for a
container that has died last. -/
structure Tracked (s : State) : Prop where
  table : ∀ containerID, (s.monitoringCtxMap containerID).isSome = true ↔ ∃! ctx, Runs s containerID ctx
  died : ∀ containerID, lastAction s.delivered containerID = some .die → ∀ ctx, ¬ Runs s containerID ctx

/-- The select of a Monitor for concurrent requests has taken a signal. -/
def signals : Signalled → Bool
  | .done => false
  | .signal _ => true

/-- Without `Done` a turn ends the Monitor when the initial read of the CPU usage fails, or
when a worker wants to scale and finds no manager node or no service. -/
def quits (settings : Settings) (monitor : Monitor) (answers : (op : Op) → op.Answer) : Bool :=
  match settings.resource, monitor.progress with
  | .cpu _, .starting => !(answers (.readCPUUsage monitor.containerID)).isOk
  | .cpu cpu, .ticking lastUsageUsec =>
      (read? (answers .selectTick) (answers (.readCPUUsage monitor.containerID))).any fun currentUsageUsec =>
        cpu.decide (currentUsageUsec - lastUsageUsec) settings.collectionPeriod ≠ "" ∧
          ¬ Asks settings.node monitor.containerID answers
  | .memory mem, .polling =>
      (read? (answers .selectTick) (answers (.readMemoryUsage monitor.containerID))).any fun memUsage =>
        mem.decide memUsage ≠ "" ∧ ¬ Asks settings.node monitor.containerID answers
  | .concReq _, .watching _ _ =>
      signals (answers .selectSignal) && !settings.node.autoscalerManager &&
        !(getManagerNode settings.node.otherNodes).isOk
  | _, _ => false

/-- The last notification of the container is a start. -/
def Wanted (s : State) (containerID : String) : Prop :=
  lastAction s.notified containerID = some .start ∨
    (lastAction s.notified containerID = none ∧ containerID ∈ s.listed)

instance (s : State) (containerID : String) : Decidable (Wanted s containerID) :=
  inferInstanceAs (Decidable (_ ∨ _))

/-- No death is dropped that should stop a Monitor, the last notification of a container is
not received before a start if it is a death, and no Monitor returns by itself. -/
def Proper (settings : Settings) (s : State) : Action → Prop
  | .deliver event fails => event.action = .die → fails = true → ¬ Wanted s event.id
  | .receive .die => ∀ containerID ∈ (s.chan .die).head?, lastAction s.notified containerID = some .die →
      containerID ∉ (s.chan .die).tail → containerID ∉ s.chan .start
  | .turn ctx answers => ∀ monitor ∈ s.monitors[ctx]?, ctx ∉ s.cancelled → quits settings monitor answers = false
  | _ => True

instance (settings : Settings) (s : State) : DecidablePred (Proper settings s)
  | .deliver _ _ => inferInstanceAs (Decidable (_ → _ → _))
  | .begin | .receive .start => isTrue trivial
  | .receive .die => inferInstanceAs (Decidable (∀ containerID ∈ (s.chan .die).head?, _))
  | .turn ctx _ => inferInstanceAs (Decidable (∀ monitor ∈ s.monitors[ctx]?, _))

section Turns

variable {settings : Settings} {monitor : Monitor} {node : SwarmNodeInfo} {containerID direction : String}
  {after : Progress} {answers : (op : Op) → op.Answer}

/-- A scaling action ends the Monitor only when it cannot pass the direction on. -/
theorem act_of_returned (hAfter : after ≠ .returned)
    (h : ((Resources.act node containerID direction after).replay answers).2 = .returned) :
    direction ≠ "" ∧ ¬ Asks node containerID answers := by
  unfold Resources.act at h
  split at h
  · next hSome =>
      refine ⟨hSome, fun hAsks => ?_⟩
      unfold Resources.request at h
      split at h
      · exact hAfter h
      · next hWorker =>
          obtain ⟨hManager, hService⟩ := hAsks.resolve_left hWorker
          cases hFound : getManagerNode node.otherNodes with
          | error err =>
              rw [hFound] at hManager
              cases hManager
          | ok managerNode =>
              rw [hFound] at h
              dsimp only at h
              rw [Program.replay_perform] at h
              cases hFind : answers (.findServiceIDFromContainer containerID) with
              | error err =>
                  rw [hFind] at hService
                  cases hService
              | ok serviceID =>
                  rw [hFind] at h
                  exact hAfter h
  · exact absurd h hAfter

/-- The CPU Monitor leaves its loop when it is cancelled or when it cannot pass a direction on. -/
theorem leaves_cpu {cpu : CPUResource} {lastUsageUsec collectionPeriod : Int64}
    (h : ((cpu.turn node containerID collectionPeriod Resources.cpuUtilization lastUsageUsec).replay answers).2 = .returned) :
    answers .selectTick = Ticked.done ∨ ∃ currentUsageUsec, answers .selectTick = Ticked.tick ∧
      answers (.readCPUUsage containerID) = .ok currentUsageUsec ∧
      cpu.decide (currentUsageUsec - lastUsageUsec) collectionPeriod ≠ "" ∧ ¬ Asks node containerID answers := by
  cases hTick : answers .selectTick with
  | done => exact Or.inl rfl
  | tick =>
      cases hRead : answers (.readCPUUsage containerID) with
      | error err =>
          rw [CPUResource.replay_error hTick hRead] at h
          cases h
      | ok currentUsageUsec =>
          rw [CPUResource.replay_ok hTick hRead] at h
          exact Or.inr ⟨currentUsageUsec, rfl, rfl, act_of_returned Progress.noConfusion h⟩

theorem leaves_memory {mem : MemoryResource} (h : ((mem.turn node containerID).replay answers).2 = .returned) :
    answers .selectTick = Ticked.done ∨ ∃ memUsage, answers .selectTick = Ticked.tick ∧
      answers (.readMemoryUsage containerID) = .ok memUsage ∧
      mem.decide memUsage ≠ "" ∧ ¬ Asks node containerID answers := by
  cases hTick : answers .selectTick with
  | done => exact Or.inl rfl
  | tick =>
      cases hRead : answers (.readMemoryUsage containerID) with
      | error err =>
          rw [MemoryResource.replay_error hTick hRead] at h
          cases h
      | ok memUsage =>
          rw [MemoryResource.replay_ok hTick hRead] at h
          exact Or.inr ⟨memUsage, rfl, rfl, act_of_returned Progress.noConfusion h⟩

/-- Before its loop the Monitor for concurrent requests may end the process, but it does not return. -/
theorem begin_concReq : ((ConcReqResource.begin containerID).replay answers).2 ≠ .returned := by
  intro h
  rw [ConcReqResource.begin, Program.replay_perform] at h
  cases hFind : answers (.findServiceIDFromContainer containerID) with
  | error err =>
      rw [hFind] at h
      cases h
  | ok serviceID =>
      rw [hFind] at h
      dsimp only at h
      rw [Program.replay_perform] at h
      cases hNamespace : answers (.getContainerNamespace containerID) with
      | error err =>
          rw [hNamespace] at h
          cases h
      | ok netns =>
          rw [hNamespace] at h
          dsimp only at h
          rw [Program.replay_perform] at h
          cases hAdd : answers (.addNamespace netns) with
          | error err =>
              rw [hAdd] at h
              cases h
          | ok _ =>
              rw [hAdd] at h
              cases h

theorem leaves_concReq {serviceID : String} {netns : UInt32}
    (h : ((ConcReqResource.turn node containerID serviceID netns).replay answers).2 = .returned) :
    answers .selectSignal = Signalled.done ∨ signals (answers .selectSignal) = true ∧
      ¬ node.autoscalerManager = true ∧ ¬ (getManagerNode node.otherNodes).isOk = true := by
  rw [ConcReqResource.turn, Program.replay_perform] at h
  cases hSignal : answers .selectSignal with
  | done => exact Or.inl rfl
  | signal threshold =>
      rw [hSignal] at h
      dsimp only at h
      refine Or.inr ⟨rfl, ?_⟩
      split at h
      · cases h
      · next hWorker =>
          refine ⟨hWorker, fun hManager => ?_⟩
          cases hFound : getManagerNode node.otherNodes with
          | error err =>
              rw [hFound] at hManager
              cases hManager
          | ok managerNode =>
              rw [hFound] at h
              cases h

theorem quits_of_returned (hRuns : monitor.progress ≠ .returned)
    (h : nextProgress settings monitor answers = .returned) :
    quits settings monitor answers = true ∨ receivesDone answers = true := by
  obtain ⟨resource, node, collectionPeriod, owned⟩ := settings
  obtain ⟨containerID, progress⟩ := monitor
  cases resource with
  | cpu cpu =>
      cases progress with
      | starting =>
          cases hRead : answers (.readCPUUsage containerID) with
          | error err => exact Or.inl (by simp only [quits, hRead]; rfl)
          | ok usageUsec =>
              rw [nextProgress, Resource.turn, Resource.turnIn, CPUResource.begin, Program.replay_perform, hRead] at h
              cases h
      | ticking lastUsageUsec =>
          rcases leaves_cpu h with hDone | ⟨currentUsageUsec, hTick, hRead, hQuits⟩
          · exact Or.inr (by rw [receivesDone, hDone]; rfl)
          · refine Or.inl ?_
            simp only [quits, hTick, hRead]
            exact decide_eq_true hQuits
      | returned => exact absurd rfl hRuns
      | polling | watching _ _ | exited => cases h
  | memory mem =>
      cases progress with
      | polling =>
          rcases leaves_memory h with hDone | ⟨memUsage, hTick, hRead, hQuits⟩
          · exact Or.inr (by rw [receivesDone, hDone]; rfl)
          · refine Or.inl ?_
            simp only [quits, hTick, hRead]
            exact decide_eq_true hQuits
      | returned => exact absurd rfl hRuns
      | starting | ticking _ | watching _ _ | exited => cases h
  | concReq concReq =>
      cases progress with
      | starting => exact absurd h begin_concReq
      | watching serviceID netns =>
          rcases leaves_concReq h with hDone | ⟨hSignals, hWorker, hManager⟩
          · refine Or.inr ?_
            rw [receivesDone, hDone]
            cases answers .selectTick <;> rfl
          · refine Or.inl ?_
            have hNode : node.autoscalerManager = false := Bool.eq_false_iff.mpr hWorker
            have hNone : (getManagerNode node.otherNodes).isOk = false := Bool.eq_false_iff.mpr hManager
            simp only [quits, hSignals, hNode, hNone]
            rfl
      | returned => exact absurd rfl hRuns
      | ticking _ | polling | exited => cases h

end Turns

section Threads

variable {settings : Settings} {s t : State} {action : Action} {containerID : String} {ctx : Nat}

/-- The table names the Monitors that were not cancelled, and none of these has returned. -/
structure Threads (s : State) : Prop where
  named : ∀ containerID ctx, s.monitoringCtxMap containerID = some ctx →
    ctx ∉ s.cancelled ∧ ∃ progress, s.monitors[ctx]? = some ⟨containerID, progress⟩
  live : ∀ ctx monitor, s.monitors[ctx]? = some monitor → ctx ∉ s.cancelled →
    s.monitoringCtxMap monitor.containerID = some ctx
  stays : ∀ ctx monitor, s.monitors[ctx]? = some monitor → ctx ∉ s.cancelled → monitor.progress ≠ .returned
  known : ∀ ctx ∈ s.cancelled, ctx < s.monitors.length

theorem Threads.startMonitoring (h : Threads s) (containerID : String) :
    Threads (s.startMonitoring containerID) := by
  unfold State.startMonitoring
  split
  · exact h
  · next hUnknown =>
      have hOld {ctx : Nat} {monitor : Monitor} (hMonitor : s.monitors[ctx]? = some monitor) :
          ctx < s.monitors.length :=
        (List.getElem?_eq_some_iff.mp hMonitor).1
      have hCases {ctx : Nat} {monitor : Monitor}
          (hMonitor : (s.monitors ++ [⟨containerID, .starting⟩])[ctx]? = some monitor) :
          s.monitors[ctx]? = some monitor ∨ ctx = s.monitors.length ∧ monitor = ⟨containerID, .starting⟩ := by
        rcases Nat.lt_trichotomy ctx s.monitors.length with hLess | rfl | hMore
        · rw [List.getElem?_append_left hLess] at hMonitor
          exact Or.inl hMonitor
        · rw [List.getElem?_concat_length] at hMonitor
          exact Or.inr ⟨rfl, (Option.some.inj hMonitor).symm⟩
        · rw [List.getElem?_eq_none (by simp; omega)] at hMonitor
          cases hMonitor
      constructor
      · intro other ctx hTable
        by_cases hSame : other = containerID
        · subst hSame
          dsimp only at hTable
          rw [Function.update_self] at hTable
          cases hTable
          exact ⟨fun hMem => Nat.lt_irrefl _ (h.known _ hMem), .starting, List.getElem?_concat_length⟩
        · dsimp only at hTable
          rw [Function.update_of_ne hSame] at hTable
          obtain ⟨hActive, progress, hMonitor⟩ := h.named other ctx hTable
          exact ⟨hActive, progress, (List.getElem?_append_left (hOld hMonitor)).trans hMonitor⟩
      · intro ctx monitor hMonitor hActive
        rcases hCases hMonitor with hBefore | ⟨rfl, rfl⟩
        · have hTable := h.live ctx monitor hBefore hActive
          have hOther : monitor.containerID ≠ containerID := by
            intro hSame
            rw [hSame, hUnknown] at hTable
            cases hTable
          dsimp only
          rw [Function.update_of_ne hOther, hTable]
        · exact Function.update_self ..
      · intro ctx monitor hMonitor hActive
        rcases hCases hMonitor with hBefore | ⟨rfl, rfl⟩
        · exact h.stays ctx monitor hBefore hActive
        · intro hReturned
          cases hReturned
      · intro ctx hMem
        dsimp only
        rw [List.length_append]
        exact Nat.lt_add_right _ (h.known ctx hMem)

theorem Threads.stopMonitoring (h : Threads s) (containerID : String) :
    Threads (s.stopMonitoring containerID) := by
  unfold State.stopMonitoring
  split
  · next ctx hKnown =>
      obtain ⟨hActive, progress, hMonitor⟩ := h.named containerID ctx hKnown
      have hSplit {other : Nat} (hOther : other ∉ s.cancelled ++ [ctx]) : other ∉ s.cancelled ∧ other ≠ ctx := by
        simpa using hOther
      constructor
      · intro other ctx' hTable
        dsimp only at hTable
        by_cases hSame : other = containerID
        · subst hSame
          rw [Function.update_self] at hTable
          cases hTable
        · rw [Function.update_of_ne hSame] at hTable
          obtain ⟨hActive', progress', hMonitor'⟩ := h.named other ctx' hTable
          refine ⟨?_, progress', hMonitor'⟩
          rintro hMem
          rcases List.mem_append.mp hMem with hOld | hNew
          · exact hActive' hOld
          · rw [List.mem_singleton.mp hNew, hMonitor] at hMonitor'
            cases hMonitor'
            exact hSame rfl
      · intro ctx' monitor hMonitor' hActive'
        obtain ⟨hOld, hOther⟩ := hSplit hActive'
        have hTable := h.live ctx' monitor hMonitor' hOld
        have hApart : monitor.containerID ≠ containerID := by
          intro hSame
          rw [hSame, hKnown] at hTable
          exact hOther (Option.some.inj hTable).symm
        dsimp only
        rw [Function.update_of_ne hApart, hTable]
      · intro ctx' monitor hMonitor' hActive'
        exact h.stays ctx' monitor hMonitor' (hSplit hActive').1
      · intro ctx' hMem
        rcases List.mem_append.mp hMem with hOld | hNew
        · exact h.known ctx' hOld
        · rw [List.mem_singleton.mp hNew]
          exact (List.getElem?_eq_some_iff.mp hMonitor).1
  · exact h

theorem Threads.turn {monitor : Monitor} {answers : (op : Op) → op.Answer} {exited : Bool} (h : Threads s)
    (hMonitor : s.monitors[ctx]? = some monitor)
    (hStays : ctx ∉ s.cancelled → nextProgress settings monitor answers ≠ .returned) :
    Threads { s with
      monitors := s.monitors.set ctx { monitor with progress := nextProgress settings monitor answers }
      exited := exited } := by
  have hLess : ctx < s.monitors.length := (List.getElem?_eq_some_iff.mp hMonitor).1
  have hCases {other : Nat} {found : Monitor}
      (hFound : (s.monitors.set ctx
        { monitor with progress := nextProgress settings monitor answers })[other]? = some found) :
      (other ≠ ctx ∧ s.monitors[other]? = some found) ∨
        (other = ctx ∧ found = { monitor with progress := nextProgress settings monitor answers }) := by
    by_cases hSame : other = ctx
    · subst hSame
      rw [List.getElem?_set_self hLess] at hFound
      exact Or.inr ⟨rfl, (Option.some.inj hFound).symm⟩
    · rw [List.getElem?_set_ne (Ne.symm hSame)] at hFound
      exact Or.inl ⟨hSame, hFound⟩
  constructor
  · intro containerID other hTable
    obtain ⟨hActive, progress, hFound⟩ := h.named containerID other hTable
    refine ⟨hActive, ?_⟩
    by_cases hSame : other = ctx
    · subst hSame
      rw [hMonitor] at hFound
      cases hFound
      exact ⟨_, List.getElem?_set_self hLess⟩
    · exact ⟨progress, (List.getElem?_set_ne (Ne.symm hSame)).trans hFound⟩
  · intro other found hFound hActive
    rcases hCases hFound with ⟨_, hBefore⟩ | ⟨rfl, rfl⟩
    · exact h.live other found hBefore hActive
    · exact h.live other monitor hMonitor hActive
  · intro other found hFound hActive
    rcases hCases hFound with ⟨_, hBefore⟩ | ⟨rfl, rfl⟩
    · exact h.stays other found hBefore hActive
    · exact hStays hActive
  · intro other hMem
    dsimp only
    rw [List.length_set]
    exact h.known other hMem

theorem Threads.handle (h : Threads s) (containerID : String) (action : EventAction) :
    Threads (s.handle containerID action) := by
  cases action with
  | start => exact h.startMonitoring containerID
  | die => exact h.stopMonitoring containerID

/-- What does not touch the table and the Monitors keeps the invariant. -/
theorem Threads.same (h : Threads s) (hTable : t.monitoringCtxMap = s.monitoringCtxMap)
    (hMonitors : t.monitors = s.monitors)
    (hCancelled : t.cancelled = s.cancelled) : Threads t := by
  constructor
  · rw [hTable, hMonitors, hCancelled]
    exact h.named
  · rw [hTable, hMonitors, hCancelled]
    exact h.live
  · rw [hMonitors, hCancelled]
    exact h.stays
  · rw [hMonitors, hCancelled]
    exact h.known

end Threads

section Ordered

variable {settings : Settings} {s t : State} {event : Event} {events : List Event} {action other : EventAction}
  {containerID : String}

/-- How the notifications that were sent agree with those still to be received and with the table. -/
structure Ordered (settings : Settings) (s : State) : Prop where
  early : s.running ≠ [] → ∀ event ∈ s.notified, event.id ∈ s.chan event.action
  known : ∀ action, ∀ containerID ∈ s.chan action, lastAction s.notified containerID ≠ none
  last : ∀ containerID ∈ s.chan .start, lastAction s.notified containerID = some .die → containerID ∈ s.chan .die
  died : ∀ containerID, lastAction s.notified containerID = some .die → containerID ∉ s.chan .die →
    s.monitoringCtxMap containerID = none
  booted : ∀ containerID, (s.monitoringCtxMap containerID).isSome = true →
    lastAction s.notified containerID = none →
    containerID ∈ s.listed
  remaining : s.running ⊆ s.listed
  owned : ∀ containerID, lastAction s.notified containerID ≠ none ∨ containerID ∈ s.listed →
    settings.owned containerID = true
  delivered : ∀ containerID, lastAction s.delivered containerID = some .die → ¬ Wanted s containerID

theorem lastAction_concat :
    lastAction (events ++ [event]) containerID =
      if event.id = containerID then some event.action else lastAction events containerID := by
  unfold lastAction
  split
  · next hSame => simp [hSame]
  · next hOther => simp [hOther]

/-- A notification changes what the table says of its container, and starts or stops a Monitor. -/
theorem handle_spec (s : State) (containerID : String) (action : EventAction) : ∃ table monitors cancelled,
    s.handle containerID action =
        { s with monitoringCtxMap := table, monitors := monitors, cancelled := cancelled } ∧
      (∀ other, other ≠ containerID → table other = s.monitoringCtxMap other) ∧
      ((table containerID).isSome = true ↔ action = .start) := by
  cases action with
  | start =>
      rw [State.handle, State.startMonitoring]
      split
      · next ctx hKnown => exact ⟨_, _, _, rfl, fun _ _ => rfl, iff_of_true (by rw [hKnown]; rfl) rfl⟩
      · exact ⟨_, _, _, rfl, fun other hOther => Function.update_of_ne hOther ..,
          iff_of_true (by rw [Function.update_self]; rfl) rfl⟩
  | die =>
      rw [State.handle, State.stopMonitoring]
      split
      · exact ⟨_, _, _, rfl, fun other hOther => Function.update_of_ne hOther ..,
          iff_of_false (by rw [Function.update_self]; exact nofun) nofun⟩
      · next hUnknown => exact ⟨_, _, _, rfl, fun _ _ => rfl, iff_of_false (by rw [hUnknown]; exact nofun) nofun⟩

/-- A notification does not depend on those that are still in the channels. -/
theorem handle_chan (chan : EventAction → List String) :
    State.handle { s with chan := chan } containerID action =
      { s.handle containerID action with chan := chan } := by
  cases action with
  | start =>
      simp only [State.handle, State.startMonitoring]
      cases s.monitoringCtxMap containerID <;> rfl
  | die =>
      simp only [State.handle, State.stopMonitoring]
      cases s.monitoringCtxMap containerID <;> rfl

theorem Ordered.handle (h : Ordered settings s)
    (hDied : action = .start → lastAction s.notified containerID = some .die → containerID ∈ s.chan .die)
    (hBooted : action = .start → lastAction s.notified containerID = none → containerID ∈ s.listed) :
    Ordered settings (s.handle containerID action) := by
  obtain ⟨table, monitors, cancelled, hHandle, hOther, hTable⟩ :=
    handle_spec s containerID action
  rw [hHandle]
  refine { h with died := ?_, booted := ?_ }
  · intro other hLast hGone
    by_cases hSame : other = containerID
    · subst hSame
      by_contra hSome
      exact hGone (hDied (hTable.mp (Option.isSome_iff_ne_none.mpr hSome)) hLast)
    · exact (hOther other hSame).trans (h.died other hLast hGone)
  · intro other hSome hLast
    by_cases hSame : other = containerID
    · subst hSame
      exact hBooted (hTable.mp hSome) hLast
    · exact h.booted other ((congrArg Option.isSome (hOther other hSame)).symm.trans hSome) hLast

/-- A notification is taken out of its channel. -/
theorem Ordered.take {rest : List String} (h : Ordered settings s) (hRunning : s.running = [])
    (hChan : s.chan action = containerID :: rest)
    (hLast : action = .die → lastAction s.notified containerID = some .die → containerID ∉ rest →
      containerID ∉ s.chan .start ∧ s.monitoringCtxMap containerID = none) :
    Ordered settings { s with chan := Function.update s.chan action rest } := by
  have hSub {other : EventAction} {found : String} (hMem : found ∈ Function.update s.chan action rest other) :
      found ∈ s.chan other := by
    by_cases hSame : other = action
    · subst hSame
      rw [Function.update_self] at hMem
      rw [hChan]
      exact List.mem_cons_of_mem _ hMem
    · rwa [Function.update_of_ne hSame] at hMem
  -- A death that is no longer in its channel was not there before, or it is the one taken.
  have hGone {found : String} (hAfter : found ∉ Function.update s.chan action rest .die) :
      found ∉ s.chan .die ∨ action = .die ∧ found = containerID ∧ containerID ∉ rest := by
    cases action with
    | start => exact Or.inl hAfter
    | die =>
        rw [Function.update_self] at hAfter
        by_cases hSame : found = containerID
        · exact Or.inr ⟨rfl, hSame, hSame ▸ hAfter⟩
        · refine Or.inl ?_
          rw [hChan]
          exact fun hMem => (List.mem_cons.mp hMem).elim hSame hAfter
  refine { h with early := ?_, known := ?_, last := ?_, died := ?_ }
  · exact fun hLeft => absurd hRunning hLeft
  · exact fun other found hMem => h.known other found (hSub hMem)
  · intro found hMem hDie
    by_contra hAfter
    rcases hGone hAfter with hBefore | ⟨hAction, rfl, hRest⟩
    · exact hBefore (h.last found (hSub hMem) hDie)
    · exact (hLast hAction hDie hRest).1 (hSub hMem)
  · intro found hDie hAfter
    rcases hGone hAfter with hBefore | ⟨hAction, rfl, hRest⟩
    · exact h.died found hDie hBefore
    · exact (hLast hAction hDie hRest).2

/-- `main` has come to the next of the running containers. -/
theorem Ordered.begun {rest : List String} (h : Ordered settings s) (hRunning : s.running = containerID :: rest) :
    Ordered settings { s with running := rest } := by
  refine { h with early := ?_, remaining := ?_ }
  · exact fun _ => h.early (hRunning ▸ List.cons_ne_nil _ _)
  · intro other hMem
    exact h.remaining (hRunning ▸ List.mem_cons_of_mem _ hMem)

/-- An event is dropped. -/
theorem Ordered.drop (h : Ordered settings s) (hKept : event.action = .die → ¬ Wanted s event.id) :
    Ordered settings { s with delivered := s.delivered ++ [event] } := by
  refine { h with delivered := ?_ }
  intro other hLast
  dsimp only at hLast
  rw [lastAction_concat] at hLast
  split at hLast
  · next hSame =>
      rw [← hSame]
      exact hKept (Option.some.inj hLast)
  · exact h.delivered other hLast

theorem mem_update_chan {chan : EventAction → List String} {found : String} :
    found ∈ Function.update chan action (chan action ++ [containerID]) other ↔
      found ∈ chan other ∨ other = action ∧ found = containerID := by
  by_cases hSame : other = action
  · subst hSame
    rw [Function.update_self, List.mem_append, List.mem_singleton, and_iff_right rfl]
  · rw [Function.update_of_ne hSame, or_iff_left (fun hNew => hSame hNew.1)]

/-- An event is sent on. Only its own container sees a new last notification. -/
theorem Ordered.send (h : Ordered settings s) (hOwned : settings.owned event.id = true) :
    Ordered settings { s with
      delivered := s.delivered ++ [event]
      notified := s.notified ++ [event]
      chan := Function.update s.chan event.action (s.chan event.action ++ [event.id]) } := by
  constructor
  · intro hRunning found hMem
    rcases List.mem_append.mp hMem with hOld | hNew
    · exact mem_update_chan.mpr (Or.inl (h.early hRunning found hOld))
    · rw [List.mem_singleton.mp hNew]
      exact mem_update_chan.mpr (Or.inr ⟨rfl, rfl⟩)
  · intro other containerID hMem
    dsimp only
    rw [lastAction_concat]
    split
    · exact nofun
    · next hOther =>
        rcases mem_update_chan.mp hMem with hOld | ⟨_, hNew⟩
        · exact h.known other containerID hOld
        · exact absurd hNew.symm hOther
  · intro containerID hMem hDie
    dsimp only at hDie
    rw [lastAction_concat] at hDie
    split at hDie
    · next hSame => exact mem_update_chan.mpr (Or.inr ⟨(Option.some.inj hDie).symm, hSame.symm⟩)
    · next hOther =>
        rcases mem_update_chan.mp hMem with hOld | ⟨_, hNew⟩
        · exact mem_update_chan.mpr (Or.inl (h.last containerID hOld hDie))
        · exact absurd hNew.symm hOther
  · intro containerID hDie hGone
    dsimp only at hDie
    rw [lastAction_concat] at hDie
    split at hDie
    · next hSame => exact absurd (mem_update_chan.mpr (Or.inr ⟨(Option.some.inj hDie).symm, hSame.symm⟩)) hGone
    · exact h.died containerID hDie fun hMem => hGone (mem_update_chan.mpr (Or.inl hMem))
  · intro containerID hSome hNone
    dsimp only at hNone
    rw [lastAction_concat] at hNone
    split at hNone
    · cases hNone
    · exact h.booted containerID hSome hNone
  · exact h.remaining
  · intro containerID hSeen
    dsimp only at hSeen
    rw [lastAction_concat] at hSeen
    split at hSeen
    · next hSame => exact hSame ▸ hOwned
    · exact h.owned containerID hSeen
  · intro containerID hDie hWanted
    dsimp only [Wanted] at hDie hWanted
    rw [lastAction_concat] at hDie hWanted
    split at hDie
    · next hSame =>
        rw [if_pos hSame, hDie] at hWanted
        rcases hWanted with hStart | ⟨hNone, _⟩
        · cases hStart
        · cases hNone
    · next hOther =>
        rw [if_neg hOther] at hWanted
        exact h.delivered containerID hDie hWanted

theorem wanted_owned (h : Ordered settings s) (hWanted : Wanted s containerID) :
    settings.owned containerID = true := by
  rcases hWanted with hStart | ⟨_, hListed⟩
  · exact h.owned containerID (Or.inl (hStart ▸ nofun))
  · exact h.owned containerID (Or.inr hListed)

end Ordered

section Steps

variable {settings : Settings} {s t : State}

theorem deliver_keeps {event : Event} {fails : Bool} (hThreads : Threads s) (hOrdered : Ordered settings s)
    (hProper : Proper settings s (.deliver event fails))
    (hStep : step settings s (.deliver event fails) = some t) :
    Threads t ∧ Ordered settings t := by
  simp only [step] at hStep
  split at hStep
  · cases hStep
  · split at hStep
    · next hDropped =>
        cases hStep
        refine ⟨hThreads.same rfl rfl rfl, hOrdered.drop fun hDie hWanted => ?_⟩
        rcases (Bool.or_eq_true ..).mp hDropped with hFails | hForeign
        · exact hProper hDie hFails hWanted
        · rw [wanted_owned hOrdered hWanted] at hForeign
          cases hForeign
    · next hSent =>
        split at hStep
        · cases hStep
          refine ⟨hThreads.same rfl rfl rfl, hOrdered.send ?_⟩
          by_contra hForeign
          exact hSent ((Bool.or_eq_true ..).mpr (Or.inr (by rw [Bool.eq_false_iff.mpr hForeign]; rfl)))
        · cases hStep

theorem begin_keeps (hThreads : Threads s) (hOrdered : Ordered settings s)
    (hStep : step settings s .begin = some t) :
    Threads t ∧ Ordered settings t := by
  simp only [step] at hStep
  split at hStep
  · cases hStep
  · split at hStep
    · cases hStep
    · next containerID rest hRunning =>
        cases hStep
        refine ⟨(hThreads.handle containerID .start).same rfl rfl rfl, ?_⟩
        have hLeft : s.running ≠ [] := hRunning ▸ List.cons_ne_nil _ _
        have hHandled : Ordered settings (s.handle containerID .start) := by
          refine hOrdered.handle (fun _ hDie => ?_) fun _ _ =>
            hOrdered.remaining (hRunning ▸ List.mem_cons_self ..)
          obtain ⟨event, hMem, hId⟩ := List.mem_map.mp (Containers.mem_of_lastAction hDie)
          obtain ⟨hNotified, hAction⟩ := List.mem_filter.mp hMem
          have hChan := hOrdered.early hLeft event hNotified
          rwa [of_decide_eq_true hAction, hId] at hChan
        obtain ⟨table, monitors, cancelled, hHandle, _⟩ :=
          handle_spec s containerID .start
        exact hHandled.begun (by rw [hHandle]; exact hRunning)

theorem receive_keeps {action : EventAction} (hThreads : Threads s) (hOrdered : Ordered settings s)
    (hProper : Proper settings s (.receive action)) (hStep : step settings s (.receive action) = some t) :
    Threads t ∧ Ordered settings t := by
  simp only [step] at hStep
  split at hStep
  · cases hStep
  · split at hStep
    · next hRunning =>
        split at hStep
        · cases hStep
        · next containerID rest hChan =>
            cases hStep
            rw [handle_chan]
            refine ⟨(hThreads.handle containerID action).same rfl rfl rfl, ?_⟩
            have hMem : containerID ∈ s.chan action := hChan ▸ List.mem_cons_self ..
            have hHandled : Ordered settings (s.handle containerID action) := by
              refine hOrdered.handle ?_ fun _ hNone => absurd hNone (hOrdered.known action containerID hMem)
              intro hStart hDie
              subst hStart
              exact hOrdered.last containerID hMem hDie
            obtain ⟨table, monitors, cancelled, hHandle, _, hTable⟩ :=
              handle_spec s containerID action
            rw [hHandle] at hHandled ⊢
            refine hHandled.take hRunning hChan fun hDie hLast hRest => ?_
            subst hDie
            refine ⟨hProper containerID (by rw [hChan]; rfl) hLast (by rw [hChan]; exact hRest), ?_⟩
            exact Option.not_isSome_iff_eq_none.mp fun hSome => nomatch hTable.mp hSome
    · cases hStep

theorem turn_keeps {ctx : Nat} {answers : (op : Op) → op.Answer} (hThreads : Threads s)
    (hOrdered : Ordered settings s)
    (hProper : Proper settings s (.turn ctx answers)) (hStep : step settings s (.turn ctx answers) = some t) :
    Threads t ∧ Ordered settings t := by
  simp only [step] at hStep
  split at hStep
  · cases hStep
  · split at hStep
    · cases hStep
    · next monitor hMonitor =>
        split at hStep
        · cases hStep
        · next hTurn =>
            cases hStep
            obtain ⟨hRuns, hDone⟩ := not_or.mp hTurn
            refine ⟨hThreads.turn hMonitor fun hActive hReturned => ?_, { hOrdered with }⟩
            rcases quits_of_returned hRuns hReturned with hQuits | hReceives
            · exact Bool.noConfusion ((hProper monitor hMonitor hActive).symm.trans hQuits)
            · exact hDone ⟨hReceives, hActive⟩

/-- What holds of every state on the way. -/
structure Kept (settings : Settings) (s : State) : Prop where
  threads : Threads s
  ordered : Ordered settings s

theorem Kept.step {action : Action} (h : Kept settings s) (hProper : Proper settings s action)
    (hStep : step settings s action = some t) : Kept settings t := by
  obtain ⟨hThreads, hOrdered⟩ : Threads t ∧ Ordered settings t := by
    cases action with
    | deliver event fails => exact deliver_keeps h.threads h.ordered hProper hStep
    | begin => exact begin_keeps h.threads h.ordered hStep
    | receive action => exact receive_keeps h.threads h.ordered hProper hStep
    | turn ctx answers => exact turn_keeps h.threads h.ordered hProper hStep
  exact ⟨hThreads, hOrdered⟩

/-- When everything has been processed, what runs for a container is what the table names. -/
theorem runs_iff {containerID : String} {ctx : Nat} (hThreads : Threads s) (hProcessed : Processed s) :
    Runs s containerID ctx ↔ s.monitoringCtxMap containerID = some ctx := by
  constructor
  · intro hRuns
    have hActive : ctx ∉ s.cancelled := fun hMem => hProcessed.stopped ctx hMem containerID hRuns
    obtain ⟨progress, hMonitor, _⟩ := hRuns
    exact hThreads.live ctx _ hMonitor hActive
  · intro hTable
    obtain ⟨hActive, progress, hMonitor⟩ := hThreads.named containerID ctx hTable
    exact ⟨progress, hMonitor, hThreads.stays ctx _ hMonitor hActive⟩

theorem Kept.tracked (h : Kept settings s) (hProcessed : Processed s) : Tracked s := by
  constructor
  · intro containerID
    constructor
    · intro hSome
      obtain ⟨ctx, hTable⟩ := Option.isSome_iff_exists.mp hSome
      refine ⟨ctx, (runs_iff h.threads hProcessed).mpr hTable, fun other hOther => ?_⟩
      exact Option.some.inj (((runs_iff h.threads hProcessed).mp hOther).symm.trans hTable)
    · rintro ⟨ctx, hRuns, _⟩
      exact Option.isSome_iff_exists.mpr ⟨ctx, (runs_iff h.threads hProcessed).mp hRuns⟩
  · intro containerID hDie ctx hRuns
    have hTable := (runs_iff h.threads hProcessed).mp hRuns
    have hUnwanted := h.ordered.delivered containerID hDie
    cases hLast : lastAction s.notified containerID with
    | none => exact hUnwanted (Or.inr ⟨hLast, h.ordered.booted containerID (hTable ▸ rfl) hLast⟩)
    | some action =>
        cases action with
        | start => exact hUnwanted (Or.inl hLast)
        | die =>
            have hGone := h.ordered.died containerID hLast (hProcessed.chan .die ▸ List.not_mem_nil)
            cases hTable.symm.trans hGone

/-- Its context is done, and everything else goes well. -/
def stopping : (op : Op) → op.Answer
  | .selectSignal => Signalled.done
  | op => smoothly op

end Steps

end Lifecycle
