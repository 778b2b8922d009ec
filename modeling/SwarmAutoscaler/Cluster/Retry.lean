import SwarmAutoscaler.Cluster.Rise
import SwarmAutoscaler.Cluster.WakeUp

/-! Wake-ups that fail. The nodes have forgotten the port before the service is scaled, and
no error on the way is answered by more than a log line. -/
namespace Cluster

open Docker Process

/-- A packet to the port of a sleeping service waits at a node that listens on the port. -/
structure Knocked (nodes : Nodes) (ip serviceID : String) (port : UInt32) (before : Site) : Prop where
  member : ip ∈ nodes.ips
  queued : ∃ samples, before.world.perf ip = longBytes port.toNat :: samples
  known : before.world.portToServiceID (ip, port) = some serviceID
  mapped : (before.world.portsMap (ip, port)).isSome
  sleeps : before.world.replicas serviceID = some 0

/-- The service has a replica, or a packet to some node starts another attempt. -/
def Retriable (nodes : Nodes) (serviceID : String) (port : UInt32) (after : World) : Prop :=
  (∃ replicas ∈ after.replicas serviceID, 1 ≤ replicas) ∨ ∃ node ∈ nodes.ips, Listening after port node

/-- A wake-up that fails can always be tried again. -/
def AlwaysRetriable : Prop :=
  ∀ (nodes : Nodes) (ip serviceID : String) (port : UInt32) (thread : Nat) (fails : Nat → Bool) (before : Site)
    (outcome : Outcome Site Result), Knocked nodes ip serviceID port before →
    (listenForEvents nodes ip).eval (solo nodes thread) fails 0 before = some outcome →
      Retriable nodes serviceID port outcome.state.world

/-- Everybody listens, and the event loop of the node has a packet to read. -/
def knockedAt (ip : String) : Site := ⟨(sleeping 0).setPerf ip [longBytes 80], []⟩

theorem knocked_knockedAt {ip : String} (hMem : ip ∈ pair.ips) : Knocked pair ip "web" 80 (knockedAt ip) where
  member := hMem
  queued := ⟨[], Function.update_self ..⟩
  known := rfl
  mapped := rfl
  sleeps := replicas_setService (sleeping 0) "web" (web 0)

/-- The manager forgets the port and does not get the scale request. -/
theorem not_alwaysRetriable : ¬ AlwaysRetriable := by
  intro h
  have hRetriable : Retriable pair "web" 80 _ :=
    h pair "worker" "web" 80 0 (fun call => call == 2) (knockedAt "worker") _ (knocked_knockedAt (by decide)) rfl
  rcases hRetriable with ⟨replicas, hCount, hOne⟩ | hListens
  · cases hCount
    exact absurd hOne (by decide)
  · exact absurd hListens (by decide)

/-- The calls that scale the service up get through, from call number `calls` on. -/
def GetsThrough (nodes : Nodes) (ip : String) (fails : Nat → Bool) (calls : Nat) : Prop :=
  if (nodes.info ip).autoscalerManager then fails calls = false ∧ fails (calls + 1) = false
  else nodes.serves (managerAddress (nodes.info ip).otherNodes) .scale = true ∧ fails calls = false ∧
    fails (calls + 1) = false ∧ fails (calls + 2) = false ∧ fails (calls + 3) = false

/-- The event is not read, or a node that listens does not get the remove request, or the
service is scaled up. -/
def Answered (nodes : Nodes) (ip : String) (port : UInt32) (fails : Nat → Bool) (before : World) : Prop :=
  fails 0 = true ∨
    (∃ node ∈ nodes.ips, node ∉ ip :: reached nodes fails 1 (nodes.info ip).otherNodes ∧
      Listening before port node) ∨
      GetsThrough nodes ip fails (afterRemoval nodes fails 1 (nodes.info ip).otherNodes)

section Exact

variable {nodes : Nodes} {ip serviceID : String} {port : UInt32} {thread calls : Nat} {fails : Nat → Bool}
  {before after : Site} {outcome : Outcome Site Result}

theorem Prepares.ports {key : String × String} {service : Service} {replicas target : UInt64} {direction : String}
    {mid : Site} (h : Prepares key before service replicas direction target mid) :
    mid.world.portToServiceID = before.world.portToServiceID ∧ mid.world.portsMap = before.world.portsMap := by
  have hConstrain : (before.constrain key.2 direction service).world.portToServiceID =
    before.world.portToServiceID ∧
      (before.constrain key.2 direction service).world.portsMap = before.world.portsMap := by
    unfold Site.constrain
    split <;> exact ⟨rfl, rfl⟩
  cases h with
  | under => exact hConstrain
  | «over» cancelled =>
      rcases cancelled_cases cancelled with ⟨_, rfl⟩ | ⟨ch, _, _, rfl⟩
      · exact hConstrain
      · exact hConstrain

/-- An "over" for a service that sleeps is an inspect, an inspect and an update. -/
theorem settled_of_course {manager : String} (hManager : (nodes.info manager).autoscalerManager = true)
    (hSleeps : before.world.replicas serviceID = some 0)
    (h : Course nodes manager serviceID "over" thread fails before outcome) :
    (fails 0 = false ∧ fails 1 = false ∧ fails 2 = false) ∧ outcome.state.world.replicas serviceID = some 1 ∨
      ¬ (fails 0 = false ∧ fails 1 = false ∧ fails 2 = false) ∧ outcome.state.world.replicas serviceID = some 0 ∧
        ∀ port node, Listening outcome.state.world port node ↔ Listening before.world port node := by
  obtain ⟨service, hStored, hCount⟩ := Option.bind_eq_some_iff.mp hSleeps
  have hUnconstrained : constrains service "over" = false := by simp [constrains, hCount]
  cases h with
  | refused early =>
      refine Or.inr ⟨fun hThrough => ?_, hSleeps, fun _ _ => Iff.rfl⟩
      rcases early.broken hManager hStored hCount (Or.inl rfl) with hFails | ⟨hConstrains, _⟩
      · simp [hThrough.1] at hFails
      · simp [hUnconstrained] at hConstrains
  | kept _ _ _ hUnder => exact absurd hUnder (by decide)
  | @counted other replicas target mid _ hOther hReplicas hRead _ hPrepares =>
      cases hStored.symm.trans hOther
      cases hCount.symm.trans hReplicas
      have hFirst : firstOfScaleTo service "over" = 1 := by simp [firstOfScaleTo, hUnconstrained]
      have hMid : mid.world.replicas serviceID = some 0 := by
        rw [World.replicas, hPrepares.stored hStored]
        exact replicas?_readied.trans hCount
      have hPorts (port : UInt32) (node : String) :
          Listening mid.world port node ↔ Listening before.world port node := by
        rw [Listening, Listening, hPrepares.ports.1, hPrepares.ports.2]
      rw [scaleOutcome, hFirst]
      cases hInspect : fails 1 with
      | true => exact Or.inr ⟨by simp, hMid, hPorts⟩
      | false =>
          cases hUpdate : fails (1 + 1) with
          | true => exact Or.inr ⟨by simp, hMid, hPorts⟩
          | false =>
              obtain rfl := hPrepares.target_eq rfl
              exact Or.inl ⟨⟨hRead, rfl, rfl⟩, replicas_setService ..⟩

/-- A service that sleeps gets its replica if the calls get through; else nothing about it
or the ports changes. -/
theorem settled_of_rises (hSleeps : before.world.replicas serviceID = some 0)
    (h : Rises nodes ip serviceID thread fails calls before after) :
    (GetsThrough nodes ip fails calls ∧ after.world.replicas serviceID = some 1) ∨
      (¬ GetsThrough nodes ip fails calls ∧ after.world.replicas serviceID = some 0 ∧
        ∀ port node, Listening after.world port node ↔ Listening before.world port node) := by
  obtain ⟨service, hStored, hCount⟩ := Option.bind_eq_some_iff.mp hSleeps
  cases h with
  | scaled hManager _ hInspect hUpdate =>
      exact Or.inl ⟨by rw [GetsThrough, if_pos hManager]; exact ⟨hInspect, hUpdate⟩, replicas_setService ..⟩
  | failed hManager hBroken =>
      refine Or.inr ⟨fun hThrough => ?_, hSleeps, fun _ _ => Iff.rfl⟩
      rw [GetsThrough, if_pos hManager] at hThrough
      have hTrue := hBroken (by rw [hStored]; nofun) hThrough.1
      rw [hThrough.2] at hTrue
      cases hTrue
  | unheard hWorker hLost =>
      refine Or.inr ⟨fun hThrough => ?_, hSleeps, fun _ _ => Iff.rfl⟩
      rw [GetsThrough, if_neg (by simp [hWorker])] at hThrough
      exact hLost ⟨hThrough.1, hThrough.2.1⟩
  | @asked asked hWorker hServes hDelivered hCourse =>
      have hThrough : GetsThrough nodes ip fails calls ↔
          fails (calls + 1) = false ∧ fails (calls + 2) = false ∧ fails (calls + 3) = false := by
        rw [GetsThrough, if_neg (by simp [hWorker])]
        simp [hServes, hDelivered]
      rw [hThrough]
      have hManager : (nodes.info (managerAddress (nodes.info ip).otherNodes)).autoscalerManager = true := by
        simpa [Nodes.serves] using (Bool.and_eq_true_iff.mp hServes).2
      have hSettled := settled_of_course hManager hSleeps hCourse
      rw [Nat.zero_add, Nat.add_comm 1, Nat.add_comm 2] at hSettled
      exact hSettled

/-- A failed wake-up can be tried again exactly when its scale-up did not fail, or some
node has missed that it should forget the port. -/
theorem retriable_iff_answered (hKnocked : Knocked nodes ip serviceID port before)
    (hEval : (listenForEvents nodes ip).eval (solo nodes thread) fails 0 before = some outcome) :
    Retriable nodes serviceID port outcome.state.world ↔ Answered nodes ip port fails before.world := by
  obtain ⟨samples, hQueue⟩ := hKnocked.queued
  have hListening : Listening before.world port ip := ⟨by rw [hKnocked.known]; rfl, hKnocked.mapped⟩
  cases hRead : fails 0 with
  | true =>
      rw [listenForEvents, Program.eval_call rfl, hRead] at hEval
      cases hEval
      exact iff_of_true (Or.inr ⟨ip, hKnocked.member, hListening⟩) (Or.inl hRead)
  | false =>
      rw [eval_listenForEvents hQueue hKnocked.known hRead, eval_wakeUp] at hEval
      have hKept := @kept_forgetAll port { before with world := before.world.setPerf ip samples }
        (ip :: reached nodes fails 1 (nodes.info ip).otherNodes)
      have hForgotten (node : String) := @listening_forgetAll port
        { before with world := before.world.setPerf ip samples }
        (ip :: reached nodes fails 1 (nodes.info ip).otherNodes) node
      generalize Site.forgetAll _ _ _ = forgotten at hEval hKept hForgotten
      have hSleeps : forgotten.world.replicas serviceID = some 0 := by
        rw [World.replicas, hKept.services]
        exact hKnocked.sleeps
      have hUnconstrained (service : Service) (hStored : service ∈ forgotten.world.services serviceID)
          (hConstrains : constrains service "over" = true) : False := by
        have hOne : service.spec.replicas? = some 1 := by simpa using (constrains_iff.mp hConstrains).2
        rw [World.replicas, hStored, Option.bind_some, hOne] at hSleeps
        cases hSleeps
      have hListens : (∃ node ∈ nodes.ips, Listening forgotten.world port node) ↔ ∃ node ∈ nodes.ips,
          node ∉ ip :: reached nodes fails 1 (nodes.info ip).otherNodes ∧ Listening before.world port node := by
        simp only [hForgotten]
        rfl
      unfold Retriable Answered
      rw [hRead, ← hListens]
      rcases settled_of_rises hSleeps (rises_of_eval
        (fun service hStored hTrue => (hUnconstrained service hStored hTrue).elim)
        (fun service hStored hTrue => (hUnconstrained service hStored hTrue).elim) hEval) with
        ⟨hThrough, hCount⟩ | ⟨hBroken, hCount, hPorts⟩
      · exact iff_of_true (Or.inl ⟨1, hCount, by decide⟩) (Or.inr (Or.inr hThrough))
      · have hAwake : ¬ ∃ replicas ∈ outcome.state.world.replicas serviceID, 1 ≤ replicas := by
          rintro ⟨replicas, hReplicas, hOne⟩
          cases hCount.symm.trans hReplicas
          exact absurd hOne (by decide)
        rw [or_iff_right hAwake]
        simp [hBroken, hPorts]

/-- A packet at the manager, with every call getting through. -/
theorem retriable_iff_answered_manager :
    ∃ outcome, (listenForEvents pair "manager").eval (solo pair 0) (fun _ => false) 0 (knockedAt "manager") =
      some outcome ∧ Retriable pair "web" 80 outcome.state.world := by
  have hEval : (listenForEvents pair "manager").eval (solo pair 0) (fun _ => false) 0 (knockedAt "manager") =
      some _ := rfl
  have hThrough (calls : Nat) : GetsThrough pair "manager" (fun _ => false) calls := by
    simp [GetsThrough, pair]
  exact ⟨_, hEval, (retriable_iff_answered (knocked_knockedAt (by decide)) hEval).mpr
    (Or.inr (Or.inr (hThrough _)))⟩

end Exact

end Cluster
