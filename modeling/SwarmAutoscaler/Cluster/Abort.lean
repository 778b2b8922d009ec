import SwarmAutoscaler.Cluster.Deployment
import SwarmAutoscaler.Cluster.Listening
import SwarmAutoscaler.Cluster.Timer

/-! Scale-downs that are given up. When the timer of a keep-alive has fired, the goroutine
makes every node listen and scales to 0; it deletes its own entry at the very end only. -/
namespace Cluster

open Docker Process

/-- No node of the list listens on the port of the service. -/
def Silent (ips : List String) (serviceID : String) (w : World) : Prop :=
  ∀ service ∈ w.services serviceID, ∀ port ∈ service.endpoint.head?, ∀ ip ∈ ips, ¬ Listening w port ip

/-- The addresses whose tables hear of a keep-alive: the node's own, and those of the peers
it broadcasts to. -/
def Instance.ips (self : Instance) : List String := self.ip :: self.nodeInfo.otherNodes.map SwarmNode.ip

/-- Docker has taken an update of the service, or there is no trace of the attempt: no entry,
and nobody listens for a service that is awake. The one update of a keep-alive goroutine is
the scale to 0. -/
def RolledBack (self : Instance) (serviceID : String) (before after : World) : Prop :=
  after.services serviceID = before.services serviceID →
    after.keepAliveOps (self.ip, serviceID) = none ∧
      (after.replicas serviceID ≠ some 0 → Silent self.ips serviceID after)

/-- Every scale-down that is given up is rolled back. -/
def AlwaysRolledBack : Prop :=
  ∀ (nodes : Nodes) (self : Instance) (serviceID : String) (thread : Nat) (fails : Nat → Bool) (before : Site)
    (outcome : Outcome Site Result),
    (scaleDown self serviceID).eval (solo nodes thread) fails 0 before = some outcome →
      RolledBack self serviceID before.world outcome.state.world

/-- One replica, and a keep-alive that was started by thread 2. -/
def lingering : Site := ⟨(awake (web 1)).setKeepAlive ("manager", "web") (some 2), []⟩

/-- The port cannot be looked up, and the entry stays. -/
theorem not_alwaysRolledBack : ¬ AlwaysRolledBack := by
  intro h
  have hRolledBack : RolledBack ⟨"manager", pair.info "manager"⟩ "web" lingering.world lingering.world :=
    h pair ⟨"manager", pair.info "manager"⟩ "web" 2 (fun _ => true) lingering ⟨_, 1, lingering⟩ rfl
  exact absurd (hRolledBack rfl).1 (by decide)

/-- The entry is gone and nobody listens for a service that is awake, or nothing fails. -/
def Unhindered (nodes : Nodes) (self : Instance) (serviceID : String) (fails : Nat → Bool) (before : World) :
    Prop :=
  if before.keepAliveOps (self.ip, serviceID) = none then
    before.replicas serviceID ≠ some 0 → Silent self.ips serviceID before
  else Completes nodes self serviceID fails before

/-- A scale-down leaves no trace behind exactly when it had nothing to do or nothing failed:
no early return takes back what was done before it. -/
theorem rolledBack_iff_unhindered {nodes : Nodes} {self : Instance} {serviceID : String} {thread : Nat}
    {fails : Nat → Bool} {before : Site} {outcome : Outcome Site Result}
    (hEval : (scaleDown self serviceID).eval (solo nodes thread) fails 0 before = some outcome) :
    RolledBack self serviceID before.world outcome.state.world ↔
      Unhindered nodes self serviceID fails before.world := by
  have hLapse := lapse_of_eval hEval
  unfold RolledBack Unhindered
  generalize outcome.result = result at hLapse
  generalize outcome.state = after at hLapse ⊢
  cases hLapse with
  | gone hNone => simp [hNone]
  | aborted hFound hFailed hKept => simp [hKept.services, hKept.entries, hFound, hFailed]
  | @slept mid service hFound hCompleted hStored hKept =>
      have hUpdated : ¬ ((mid.setService serviceID (scaled service 0)).setKeepAlive
          (self.ip, serviceID) none).world.services serviceID = before.world.services serviceID := by
        intro hSame
        have hScaled : (mid.world.setService serviceID (scaled service 0)).services serviceID = some service :=
          hSame.trans hStored
        rw [World.setService_services, Function.update_self] at hScaled
        exact absurd (congrArg Service.version (Option.some.inj hScaled)) (Nat.succ_ne_self _)
      rw [if_neg hFound]
      exact iff_of_true (fun hSame => absurd hSame hUpdated) hCompleted

/-- Every call gets through, and the service sleeps. -/
theorem rolledBack_iff_unhindered_pair :
    ∃ outcome, (scaleDown ⟨"manager", pair.info "manager"⟩ "web").eval (solo pair 2) (fun _ => false) 0 lingering =
        some outcome ∧
      RolledBack ⟨"manager", pair.info "manager"⟩ "web" lingering.world outcome.state.world := by
  have hEval : (scaleDown ⟨"manager", pair.info "manager"⟩ "web").eval (solo pair 2) (fun _ => false) 0 lingering =
      some _ := rfl
  have hDelivered : Delivered pair (fun _ => false) 2 (pair.info "manager").otherNodes := ⟨rfl, rfl, trivial⟩
  have hCompletes : Completes pair ⟨"manager", pair.info "manager"⟩ "web" (fun _ => false) lingering.world :=
    ⟨⟨web 1, rfl, by decide⟩, rfl, rfl, hDelivered, rfl, rfl⟩
  exact ⟨_, hEval, (rolledBack_iff_unhindered hEval).mpr (by rwa [Unhindered, if_neg (by decide)])⟩

end Cluster
