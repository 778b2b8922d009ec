import Mathlib.Data.List.Count
import SwarmAutoscaler.Cluster.Broadcast
import SwarmAutoscaler.Cluster.Managers

/-! The list of peers that a node reads from its configuration. The loop over the managers
leaves out the node itself, the loop over the workers does not, and a host that stands in
both maps gets two entries. -/
namespace Cluster

open Docker Process

/-- The hostnames of one group of the configuration, in the order in which it was read. -/
def hosts (entries : List (String × String)) : List String := entries.map Prod.fst

/-- One entry for every host but this one, marked as manager if it is one, and no others. -/
structure RestOfCluster (config : Config) (hostname : String) (nodes : List SwarmNode) : Prop where
  once : ∀ name, (nodes.map SwarmNode.hostname).count name =
    if (name ∈ hosts config.managers ∨ name ∈ hosts config.workers) ∧ name ≠ hostname then 1 else 0
  marked : ∀ node ∈ nodes, node.manager = true ↔ node.hostname ∈ hosts config.managers

/-- A broadcast goes through the addresses in order, to their end if it succeeds. -/
def Addresses (others : List String) (heard : Heard) : Prop :=
  heard.exchanges.map Prod.fst <+: others ∧ (heard.result = .ok () → heard.exchanges.map Prod.fst = others)

/-- The list is the rest of the cluster, and what both broadcasts address. -/
structure ExactPeers (config : Config) (hostname : String) : Prop where
  rest : RestOfCluster config hostname (createswarmNodeInfo config hostname).otherNodes
  listen : ∀ spoiled listenOnPort port serviceID,
    (heardListen spoiled listenOnPort (createswarmNodeInfo config hostname) port serviceID).Returns anyAnswer
      (Addresses (addresses (createswarmNodeInfo config hostname)))
  remove : ∀ spoiled removePort port,
    (heardRemove spoiled removePort (createswarmNodeInfo config hostname) port).Returns anyAnswer
      (Addresses (addresses (createswarmNodeInfo config hostname)))

/-- The keys of the two maps, each in the order in which Go goes through it. -/
def Config.Distinct (config : Config) : Prop := (hosts config.managers).Nodup ∧ (hosts config.workers).Nodup

/-- Every node of a configuration with distinct hostnames gets exactly the other nodes as
its peers. -/
def AlwaysExactPeers : Prop :=
  ∀ (config : Config) (hostname : String), config.Distinct → ExactPeers config hostname

/-- No worker is this node or a manager as well. -/
def WorkersApart (config : Config) (hostname : String) : Prop :=
  ∀ name ∈ hosts config.workers, name ≠ hostname ∧ name ∉ hosts config.managers

instance (config : Config) (hostname : String) : Decidable (WorkersApart config hostname) :=
  inferInstanceAs (Decidable (∀ name ∈ hosts config.workers, _ ∧ _))

/-- A manager and a worker, as the worker reads it. -/
theorem not_alwaysExactPeers : ¬ AlwaysExactPeers := by
  intro h
  have hOnce := (h ⟨[("host1", "manager")], [("host2", "worker")], 5⟩ "host2" ⟨by decide, by decide⟩).rest.once
    "host2"
  exact absurd hOnce (by decide)

section Count

variable {config : Config} {hostname name : String}

theorem hostnames_eq : (createswarmNodeInfo config hostname).otherNodes.map SwarmNode.hostname =
    (hosts config.managers).filter (fun name => name ≠ hostname) ++ hosts config.workers := by
  rw [createswarmNodeInfo, List.map_append, List.map_map, List.map_map, hosts, List.filter_map]
  rfl

/-- How often a host is in the list: once as another manager, and once as a worker. -/
theorem count_hostnames (hDistinct : config.Distinct) (name : String) :
    ((createswarmNodeInfo config hostname).otherNodes.map SwarmNode.hostname).count name =
      (if name ∈ hosts config.managers ∧ name ≠ hostname then 1 else 0) +
        if name ∈ hosts config.workers then 1 else 0 := by
  rw [hostnames_eq, List.count_append, hDistinct.2.count, (hDistinct.1.filter _).count]
  simp only [List.mem_filter, decide_eq_true_eq]

/-- Entries of managers are marked, those of workers are not. -/
theorem marked_iff (hApart : ∀ name ∈ hosts config.workers, name ∉ hosts config.managers) :
    ∀ node ∈ (createswarmNodeInfo config hostname).otherNodes,
      node.manager = true ↔ node.hostname ∈ hosts config.managers := by
  intro node hNode
  rcases List.mem_append.mp hNode with hManager | hWorker
  · obtain ⟨entry, hEntry, rfl⟩ := List.mem_map.mp hManager
    exact iff_of_true rfl (List.mem_map_of_mem (List.mem_filter.mp hEntry).1)
  · obtain ⟨entry, hEntry, rfl⟩ := List.mem_map.mp hWorker
    exact iff_of_false nofun (hApart entry.1 (List.mem_map_of_mem hEntry))

theorem restOfCluster_iff (hDistinct : config.Distinct) :
    RestOfCluster config hostname (createswarmNodeInfo config hostname).otherNodes ↔
      WorkersApart config hostname := by
  constructor
  · intro hRest name hWorker
    have hOnce := hRest.once name
    rw [count_hostnames hDistinct, if_pos hWorker] at hOnce
    constructor
    · intro hSelf
      rw [if_neg fun h => h.2 hSelf, if_neg fun h => h.2 hSelf] at hOnce
      cases hOnce
    · intro hManager
      by_cases hSelf : name = hostname
      · rw [if_neg fun h => h.2 hSelf, if_neg fun h => h.2 hSelf] at hOnce
        cases hOnce
      · rw [if_pos ⟨hManager, hSelf⟩, if_pos ⟨Or.inl hManager, hSelf⟩] at hOnce
        cases hOnce
  · intro hApart
    refine ⟨fun name => ?_, marked_iff fun name hWorker => (hApart name hWorker).2⟩
    rw [count_hostnames hDistinct]
    by_cases hWorker : name ∈ hosts config.workers
    · obtain ⟨hOther, hNotManager⟩ := hApart name hWorker
      rw [if_neg fun h => hNotManager h.1, if_pos hWorker, if_pos ⟨Or.inr hWorker, hOther⟩]
    · simp only [hWorker, or_false, ↓reduceIte, Nat.add_zero]

end Count

/-- The list is exactly the rest of the cluster, whatever the order of the maps, exactly
when no worker is this node or stands among the managers as well. -/
theorem exactPeers_iff_workersApart {config : Config} (hostname : String) (hDistinct : config.Distinct) :
    ExactPeers config hostname ↔ WorkersApart config hostname := by
  rw [← restOfCluster_iff hDistinct]
  refine ⟨ExactPeers.rest, fun hRest => ⟨hRest, fun _ _ _ _ => ?_, fun _ _ _ => ?_⟩⟩
  · exact (returns_exchanges fun _ => returns_exchange).mono fun _ hHears => ⟨hHears.asked, hHears.all⟩
  · exact (returns_exchanges fun _ => returns_exchange).mono fun _ hHears => ⟨hHears.asked, hHears.all⟩

theorem exactPeers_trio : ExactPeers trioConfig "host1" :=
  (exactPeers_iff_workersApart "host1" ⟨by decide, by decide⟩).mpr (by decide)

end Cluster
