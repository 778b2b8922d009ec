import Mathlib.Data.Set.Function
import SwarmAutoscaler.Cluster.Deployment
import SwarmAutoscaler.Cluster.Rounds
import SwarmAutoscaler.Docker.Tasks

/-! Which container of a service is monitored. Without a handler node it is the one of the
task with slot 1, and the orchestrator may stop that task as well as any other. -/
namespace Cluster

open Docker Process

/-- `hostname` and `container` are the answers of the operating system and of Docker, the
container given by its labels. -/
def checkOwnedContainer (hostname : Except String String) (container : Except String (List (String × String))) :
    Except String Bool :=
  match hostname with
  | .error err => .error err
  | .ok hostname =>
      match container with
      | .error err => .error err
      | .ok labels =>
          match labels.lookup "autoscaler.handlerNode" with
          | some hostnameLabel => .ok (hostnameLabel == hostname)
          | none =>
              match labels.lookup "com.docker.swarm.task.name" with
              | some taskName => .ok (contains taskName ".1.")
              | none => .ok false

/-- The labels of a task's container, those of Swarm before those of the service. -/
def taskLabels (service : String) (slot : Nat) (id : String) (labels : List (String × String)) :
    List (String × String) :=
  [("com.docker.swarm.service.name", service), ("com.docker.swarm.task.id", id),
    ("com.docker.swarm.task.name", taskName service slot id)] ++ labels

/-- The cluster with the slots of the service's running tasks. -/
structure Fleet where
  series : Series
  slots : List Nat
  distinct : slots.Nodup

/-- A request, and the tasks that the orchestrator stops afterwards. -/
structure Change where
  round : Round
  stopped : List Nat := []

/-- The orchestrator follows the count after every request. -/
def Fleet.step (nodes : Nodes) (serviceID : String) (fleet : Fleet) (change : Change) : Option Fleet :=
  (fleet.series.step nodes serviceID change.round).bind fun series =>
    (series.site.world.replicas serviceID).bind fun replicas =>
      match hSettle : settle replicas.toNat change.stopped fleet.slots with
      | none => none
      | some slots => some ⟨series, slots, nodup_settle fleet.distinct hSettle⟩

/-- Only `changeServiceReplicas` changes the count. -/
def Requested (_ : Fleet) (change : Change) : Prop :=
  ∃ ip direction, change.round.task = .request ip direction ∧ (direction = "over" ∨ direction = "under")

/-- Exactly one container of the service is owned, if any runs: whatever the nodes of the
tasks and their IDs are. -/
def OneOwner (service : String) (labels : List (String × String)) (fleet : Fleet) : Prop :=
  fleet.slots ≠ [] → ∀ (hostnames ids : Nat → String), (∀ slot, '.' ∉ (ids slot).toList) →
    fleet.slots.countP (fun slot => decide (checkOwnedContainer (.ok (hostnames slot))
      (.ok (taskLabels service slot (ids slot) labels)) = .ok true)) = 1

/-- A service without a handler node, with the tasks it was started with. -/
def Unhandled (serviceID : String) (fleet : Fleet) : Prop :=
  ∃ service ∈ fleet.series.site.world.services serviceID,
    service.spec.labels.lookup "autoscaler.handlerNode" = none ∧
      ∃ replicas ∈ service.spec.replicas?, fleet.slots = fill replicas.toNat []

/-- A running service always has one owner. -/
def AlwaysOwned : Prop :=
  ∀ (nodes : Nodes) (serviceID service : String) (labels : List (String × String)) (start : Fleet)
    (changes : List Change), Unhandled serviceID start → '.' ∉ service.toList →
    labels.lookup "autoscaler.handlerNode" = none →
    Meets (Fleet.step nodes serviceID) Requested start changes →
    Throughout (Fleet.step nodes serviceID) (OneOwner service labels) start changes

section Implicit

variable {service id : String} {slot : Nat} {hostname : Except String String} {labels : List (String × String)}

/-- Without a handler node the name of the task decides, on whichever node. -/
theorem checkOwnedContainer_iff (hService : '.' ∉ service.toList) (hId : '.' ∉ id.toList)
    (hHandler : labels.lookup "autoscaler.handlerNode" = none)
    (hName : labels.lookup "com.docker.swarm.task.name" = some (taskName service slot id)) :
    checkOwnedContainer hostname (.ok labels) = .ok true ↔ hostname.isOk = true ∧ slot = 1 := by
  cases hostname with
  | error err => exact iff_of_false nofun fun h => nomatch h.1
  | ok hostname =>
      rw [checkOwnedContainer]
      simp only [hHandler, hName, Except.ok.injEq]
      exact (contains_taskName_iff hService hId).trans (and_iff_right rfl).symm

/-- The owner is the task with slot 1. -/
theorem owned_iff {hostname : String} (hService : '.' ∉ service.toList) (hId : '.' ∉ id.toList)
    (hLabels : labels.lookup "autoscaler.handlerNode" = none) :
    checkOwnedContainer (.ok hostname) (.ok (taskLabels service slot id labels)) = .ok true ↔ slot = 1 := by
  have hHandler : (taskLabels service slot id labels).lookup "autoscaler.handlerNode" = none := by
    simp [taskLabels, List.lookup_cons, hLabels]
  have hName : (taskLabels service slot id labels).lookup "com.docker.swarm.task.name" =
      some (taskName service slot id) := by
    simp [taskLabels, List.lookup_cons]
  exact (checkOwnedContainer_iff hService hId hHandler hName).trans (and_iff_right rfl)

end Implicit

/-- The labels of a container, with the slot and the ID of its task. -/
structure Container where
  slot : Nat
  id : String
  labels : List (String × String)

/-- The container has the name of its task as a label, and no handler node. -/
structure Container.Implicit (service : String) (container : Container) : Prop where
  undotted : '.' ∉ container.id.toList
  handler : container.labels.lookup "autoscaler.handlerNode" = none
  name : container.labels.lookup "com.docker.swarm.task.name" =
    some (taskName service container.slot container.id)

/-- Some node takes the container for its own. -/
def Container.Owned (container : Container) : Prop :=
  ∃ hostname, checkOwnedContainer hostname (.ok container.labels) = .ok true

/-- Of the containers of a service exactly the one with slot 1 is owned, so no two are. -/
theorem owned_iff_firstSlot {service : String} (hService : '.' ∉ service.toList) :
    (∀ (hostname : String) (container : Container), container.Implicit service →
      (checkOwnedContainer (.ok hostname) (.ok container.labels) = .ok true ↔ container.slot = 1)) ∧
    ∀ containers : Set Container, (∀ container ∈ containers, container.Implicit service) →
      Set.InjOn Container.slot containers → {container ∈ containers | container.Owned}.Subsingleton := by
  have hChecked {hostname : Except String String} {container : Container} (h : container.Implicit service) :
      checkOwnedContainer hostname (.ok container.labels) = .ok true ↔
        hostname.isOk = true ∧ container.slot = 1 :=
    checkOwnedContainer_iff hService h.undotted h.handler h.name
  constructor
  · intro hostname container hImplicit
    exact (hChecked hImplicit).trans (and_iff_right rfl)
  · intro containers hImplicit hDistinct
    have hFirst {container : Container} (hMem : container ∈ containers) (hOwned : container.Owned) :
        container.slot = 1 := by
      obtain ⟨hostname, hTrue⟩ := hOwned
      exact ((hChecked (hImplicit container hMem)).mp hTrue).2
    rintro container ⟨hMem, hOwned⟩ other ⟨hMem', hOwned'⟩
    apply hDistinct hMem hMem'
    rw [hFirst hMem hOwned, hFirst hMem' hOwned']

/-- Slot 11 of a service with a 1 in its name, next to slot 1. -/
theorem owned_iff_firstSlot_eleven :
    ¬ checkOwnedContainer (.ok "host1") (.ok (taskLabels "web-1" 11 "1a1" [])) = .ok true ∧
      checkOwnedContainer (.ok "host1") (.ok (taskLabels "web-1" 1 "1a1" [])) = .ok true := by
  have hOwned := (@owned_iff_firstSlot "web-1" (by decide)).1 "host1"
  constructor
  · exact fun h => absurd ((hOwned ⟨11, "1a1", _⟩ ⟨by decide, rfl, rfl⟩).mp h) (by decide)
  · exact (hOwned ⟨1, "1a1", _⟩ ⟨by decide, rfl, rfl⟩).mpr rfl

theorem settled_of_step {nodes : Nodes} {serviceID : String} {fleet next : Fleet} {change : Change}
    (h : fleet.step nodes serviceID change = some next) :
    ∃ desired, settle desired change.stopped fleet.slots = some next.slots := by
  obtain ⟨series, _, h⟩ := Option.bind_eq_some_iff.mp h
  obtain ⟨replicas, _, h⟩ := Option.bind_eq_some_iff.mp h
  split at h
  · cases h
  · next slots hSettle =>
      cases h
      exact ⟨replicas.toNat, hSettle⟩

theorem oneOwner_iff {service : String} {labels : List (String × String)} {fleet : Fleet}
    (hService : '.' ∉ service.toList) (hLabels : labels.lookup "autoscaler.handlerNode" = none) :
    OneOwner service labels fleet ↔ (fleet.slots ≠ [] → 1 ∈ fleet.slots) := by
  have hCount {hostnames ids : Nat → String} (hIds : ∀ slot, '.' ∉ (ids slot).toList) :
      fleet.slots.countP (fun slot => decide (checkOwnedContainer (.ok (hostnames slot))
        (.ok (taskLabels service slot (ids slot) labels)) = .ok true)) = fleet.slots.count 1 := by
    apply List.countP_congr
    intro slot _
    simp [owned_iff hService (hIds slot) hLabels]
  constructor
  · intro h hSome
    have hOne := h hSome (fun _ => "host") (fun _ => "id") (fun _ => by decide)
    rw [hCount (fun _ => by decide)] at hOne
    exact List.count_pos_iff.mp (by omega)
  · intro h hSome hostnames ids hIds
    rw [hCount hIds]
    exact List.count_eq_one_of_mem fleet.distinct (h hSome)

/-- Two tasks, of which the first is stopped. -/
def orphaned : List Change := [{ round := { task := .request "manager" "under" }, stopped := [1] }]

/-- A fleet in which Docker has filled the slots of one service. -/
def fleetOf (replicas : UInt64) : Fleet := ⟨⟨⟨awake (web replicas), []⟩, []⟩, fill replicas.toNat [],
      nodup_fill .nil⟩

/-- The task that is left has slot 2. -/
theorem not_alwaysOwned : ¬ AlwaysOwned := by
  intro h
  have hUnhandled : Unhandled "web" (fleetOf 2) := ⟨web 2, rfl, rfl, 2, rfl, rfl⟩
  have hOwned := h pair "web" "web" [] (fleetOf 2) orphaned hUnhandled (by decide) rfl
    ⟨⟨"manager", "under", rfl, Or.inr rfl⟩, fun _ _ => trivial⟩
  have hLeft := (oneOwner_iff (by decide) rfl).mp (hOwned.2 _ rfl)
  exact absurd (hLeft (by decide)) (by decide)

/-- The task with slot 1 is only stopped together with all others. -/
def SparesFirst (fleet : Fleet) (change : Change) : Prop :=
  1 ∈ change.stopped → ∀ slot ∈ fleet.slots, slot ∈ change.stopped

section Exact

variable {desired : Nat} {stopped slots settled : List Nat}

theorem first_settled_iff (hFirst : slots ≠ [] → 1 ∈ slots)
    (hSettle : settle desired stopped slots = some settled) :
    (settled ≠ [] → 1 ∈ settled) ↔ (1 ∈ stopped → ∀ slot ∈ slots, slot ∈ stopped) := by
  unfold settle at hSettle
  split at hSettle
  · next hMany =>
      dsimp only at hSettle
      split at hSettle <;> cases hSettle
      have hOne : 1 ∈ slots := hFirst (List.ne_nil_of_length_pos (by omega))
      rw [ne_eq, List.filter_eq_nil_iff, List.mem_filter]
      by_cases hStopped : 1 ∈ stopped
      · simp [hStopped]
      · simp [hStopped, hOne]
  · split at hSettle <;> cases hSettle
    next hNone =>
      refine iff_of_true (fun hSome => ?_) (by simp [hNone])
      by_cases hEmpty : slots = []
      · subst hEmpty
        exact one_mem_fill_nil hSome
      · exact subset_fill (hFirst hEmpty)

end Exact

/-- There is always one owner exactly when the orchestrator never stops the task with slot 1
and leaves another: the autoscaler does nothing to keep it. -/
theorem oneOwner_throughout_iff {nodes : Nodes} {serviceID service : String} {labels : List (String × String)}
    {start finish : Fleet} {changes : List Change} (hUnhandled : Unhandled serviceID start)
    (hService : '.' ∉ service.toList) (hLabels : labels.lookup "autoscaler.handlerNode" = none)
    (hRun : run (Fleet.step nodes serviceID) start changes = some finish) :
    Throughout (Fleet.step nodes serviceID) (OneOwner service labels) start changes ↔
      Meets (Fleet.step nodes serviceID) SparesFirst start changes := by
  obtain ⟨_, _, _, replicas, _, hSlots⟩ := hUnhandled
  have hStart : OneOwner service labels start := (oneOwner_iff hService hLabels).mpr (hSlots ▸ one_mem_fill_nil)
  refine throughout_iff_guarded (fun _ _ _ _ _ => trivial) ?_ trivial hStart hRun
  intro fleet change next _ hHolds hStep
  obtain ⟨desired, hSettle⟩ := settled_of_step hStep
  rw [oneOwner_iff hService hLabels]
  exact first_settled_iff ((oneOwner_iff hService hLabels).mp hHolds) hSettle

/-- Up to three tasks and down to two, of which one is the first. -/
theorem oneOwner_throughout_iff_spared :
    Throughout (Fleet.step pair "web") (OneOwner "web" []) (fleetOf 2)
      [{ round := { task := .request "manager" "over" } },
        { round := { task := .request "manager" "under" }, stopped := [2] }] := by
  have hUnhandled : Unhandled "web" (fleetOf 2) := ⟨web 2, rfl, rfl, 2, rfl, rfl⟩
  have hRun : run (Fleet.step pair "web") (fleetOf 2) [{ round := { task := .request "manager" "over" } },
    { round := { task := .request "manager" "under" }, stopped := [2] }] = some _ := rfl
  refine (oneOwner_throughout_iff hUnhandled (by decide) rfl hRun).mpr ⟨nofun, fun next _ => ?_⟩
  exact ⟨fun hFirst => absurd hFirst (by decide), fun _ _ => trivial⟩

end Cluster
