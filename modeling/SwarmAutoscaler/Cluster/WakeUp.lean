import SwarmAutoscaler.Cluster.Deployment
import SwarmAutoscaler.Cluster.Footprint
import SwarmAutoscaler.Cluster.Listening
import SwarmAutoscaler.Cluster.Request

/-! Wake-ups of one service seen by several nodes. The manager assigns one replica, a
worker asks the manager for one replica more, so what a wake-up does depends on the node
that sees the packet and on the wake-ups before it. -/
namespace Cluster

open Docker Process

/-- The turn of an event loop: what it has done since it last read the perf buffer. -/
inductive Turn where
  | waiting
  /-- has a sample; it may have handled a packet in an earlier turn -/
  | looking (handled : Bool)
  /-- has found the service of the port and removes the port on all nodes -/
  | removing (serviceID : String)
  /-- on the manager, in `scaleTo` after its inspect -/
  | setting (serviceID : String) (current : Service)
  /-- on a worker, the "over" request has been delivered -/
  | posted (serviceID : String)
  /-- the "over" request has seen this count at its first inspect -/
  | asking (serviceID : String) (seen : UInt64) (point : Point)
  | woken

namespace Turn

/-- The loop has begun to handle a packet for a service. -/
def handled : Turn → Bool
  | .waiting => false
  | .looking handled => handled
  | _ => true

/-- Where the answer takes an event loop in its turn: past the lookup it is committed to
wake the service up, whoever else does so meanwhile. -/
def advance (turn : Turn) (op : Op) : op.Answer → Turn :=
  match turn, op with
  | .waiting, .perfRead _ => fun
      | .error _ => .waiting
      | .ok _ => .looking false
  | .looking handled, .portToServiceIDLoad _ _ => fun
      | none => if handled then .woken else .waiting
      | some serviceID => .removing serviceID
  | .removing serviceID, .serviceInspect _ => fun
      | .error _ => .woken
      | .ok current => .setting serviceID current
  | .removing serviceID, .httpPost _ .scale => fun
      | .error _ => .woken
      | .ok _ => .posted serviceID
  | .setting _ _, .serviceUpdate _ _ _ => fun _ => .woken
  | .setting _ _, .recover | .asking _ _ _, .recover => fun _ => .woken
  | .posted serviceID, .serviceInspect _ => fun
      | .error _ => .woken
      | .ok service =>
          match service.spec.replicas? with
          | none => .woken
          | some seen => .asking serviceID seen (Point.inspected "over" service)
  | .asking _ _ _, .perfRead _ | .woken, .perfRead _ => fun
      | .error _ => .woken
      | .ok _ => .looking true
  | .asking serviceID seen point, op => fun answer => .asking serviceID seen (point.advance "over" op answer)
  | turn, _ => fun _ => turn

/-- The event loop may read the next sample. -/
def ready : Turn → Bool
  | .waiting | .looking _ | .woken => true
  | .asking _ _ point => point.mayEnd
  | _ => false

/-- The operations of `removePort`, on this node or behind a remove request. -/
def Removes : Op → Prop
  | .portToServiceIDLoad _ _ | .portToServiceIDDelete _ _ | .portsMapDelete _ _ => True
  | .httpPost _ .remove => True
  | _ => False

/-- What an event loop may do in its turn. A worker posts to the manager where the manager
itself goes on with an inspect. -/
def permits (manager : String) (ip : String) (turn : Turn) (op : Op) : Prop :=
  (turn.ready = true ∧ op = .perfRead ip) ∨
    match turn with
    | .waiting | .woken => False
    | .looking _ => ∃ port, op = .portToServiceIDLoad ip port
    | .removing serviceID => Removes op ∨ (ip = manager ∧ op = .serviceInspect serviceID) ∨
        (ip ≠ manager ∧ op = .httpPost manager .scale)
    | .setting serviceID current => op = .nilDereference ∨ op = .recover ∨
        ∃ spec, op = .serviceUpdate serviceID current.version spec ∧ spec.replicas? = some 1
    | .posted serviceID => op = .serviceInspect serviceID
    | .asking serviceID _ point => op = .recover ∨ point.permits manager serviceID op

end Turn

/-- The turns of the event loops of a cluster with one manager. -/
def turns (nodes : Nodes) (manager : String) : Tracking signature Call Turn Result where
  protocol
    | .listener ip =>
        if ip ∈ nodes.ips then ⟨Turn.permits manager ip, Turn.advance, fun turn _ => turn.ready = true⟩
        else .free
    | _ => .free
  initial _ := .waiting

/-- The count of a service that has been woken up. -/
def atLeastOne (replicas : UInt64) : UInt64 := if replicas = 0 then 1 else replicas

/-- Every event loop waits for packets, and one of them has handled one for the service. -/
def HandledAll (nodes : Nodes) (manager : String) (s : State) : Prop :=
  (∀ thread ∈ s.threads, idle thread = true) ∧
    ∃ i < s.threads.length, ∃ turn ∈ (turns nodes manager).running s i, turn.handled = true

/-- The count is the one the wake-ups have found or at least one, and at least one after them. -/
def WokenOnce (nodes : Nodes) (manager serviceID : String) (replicas : UInt64) (s : State) : Prop :=
  ∃ count ∈ s.world.replicas serviceID, (count = replicas ∨ count = atLeastOne replicas) ∧
    (HandledAll nodes manager s → count = atLeastOne replicas)

/-- Nothing but packets and the event loops, and no call fails by itself. -/
def Undisturbed : State → Action → Prop
  | _, .invoke _ => False
  | _, .step _ fail => fail = false
  | _, _ => True

/-- All nodes listen for the one service, which has the given count. -/
structure AllListening (nodes : Nodes) (serviceID : String) (port : UInt32) (replicas : UInt64) (w : World) :
    Prop where
  listening : ∀ ip ∈ nodes.ips, Listening w port ip
  oneService : ∀ key id, w.portToServiceID key = some id → id = serviceID
  stored : ∃ service, w.services serviceID = some service ∧ service.id = serviceID ∧
    service.spec.replicas? = some replicas

instance (nodes : Nodes) (manager : String) (s : State) : Decidable (HandledAll nodes manager s) :=
  inferInstanceAs (Decidable ((∀ thread ∈ s.threads, idle thread = true) ∧
    ∃ i < s.threads.length, ∃ turn ∈ (turns nodes manager).running s i, turn.handled = true))

instance (nodes : Nodes) (manager serviceID : String) (replicas : UInt64) (s : State) :
    Decidable (WokenOnce nodes manager serviceID replicas s) :=
  inferInstanceAs (Decidable (∃ count ∈ s.world.replicas serviceID,
    (count = replicas ∨ count = atLeastOne replicas) ∧ (HandledAll nodes manager s → count = atLeastOne replicas)))

instance (s : State) : DecidablePred (Undisturbed s)
  | .invoke _ => isFalse id
  | .step _ fail => inferInstanceAs (Decidable (fail = false))
  | .meet _ _ | .disturb _ => isTrue trivial

/-- With one manager, any packets at any nodes wake a sleeping service exactly once,
whatever the interleaving. -/
def AlwaysOnce : Prop :=
  ∀ (nodes : Nodes) (manager serviceID : String) (port : UInt32) (replicas : UInt64) (w : World)
    (actions : List Action) (s : State),
    OneManager nodes manager → AllListening nodes serviceID port replicas w →
    Meets (machine nodes).step Undisturbed (start nodes w) actions →
    run (machine nodes).step (start nodes w) actions = some s → HandledAll nodes manager s →
    s.world.replicas serviceID = some (atLeastOne replicas)

/-- The service sleeps, both nodes listen for it. -/
def sleeping (replicas : UInt64) : World where
  services := Function.update (fun _ => none) "web" (some (web replicas))
  portToServiceID := fun key => if key.2 = 80 then some "web" else none
  portsMap := fun key => if key.2 = 80 then some 1 else none

theorem allListening_sleeping (replicas : UInt64) : AllListening pair "web" 80 replicas (sleeping replicas) where
  listening ip _ := ⟨rfl, rfl⟩
  oneService key id h := by
    simp only [sleeping] at h
    split at h <;> cases h
    rfl
  stored := ⟨web replicas, by simp [sleeping], rfl, rfl⟩

/-- A packet at each node; both find the service before either removes the port. -/
def twice : List Action :=
  [.disturb (.packet "manager" 80), .disturb (.packet "worker" 80), .step 0 false, .step 0 false,
    .step 1 false, .step 1 false] ++ List.replicate 9 (.step 0 false) ++ List.replicate 8 (.step 1 false)

theorem not_alwaysOnce : ¬ AlwaysOnce := by
  intro h
  have hRun : run (machine pair).step (start pair (sleeping 0)) twice =
      some ((run (machine pair).step (start pair (sleeping 0)) twice).get (by decide)) := by simp
  have hCount := h pair "manager" "web" 80 0 (sleeping 0) twice _ oneManager_pair (allListening_sleeping 0)
    (by decide) hRun (by decide)
  exact absurd hCount (by decide)

section Code

variable {nodes : Nodes} {manager ip : String}

/-- The protocol of the event loop of a node of the cluster. -/
def turnProtocol (manager ip : String) : Program.Protocol signature Turn Result :=
  ⟨Turn.permits manager ip, Turn.advance, fun turn _ => turn.ready = true⟩

/-- What is found is a manager among the peers. -/
theorem getManagerNode_spec {node : SwarmNode} {others : List SwarmNode} (h : getManagerNode others = .ok node) :
    node ∈ others ∧ node.manager = true := by
  induction others with
  | nil => cases h
  | cons first rest ih =>
      rw [getManagerNode] at h
      split at h
      · next hManager =>
          cases h
          exact ⟨List.mem_cons_self .., hManager⟩
      · obtain ⟨hMem, hManager⟩ := ih h
        exact ⟨List.mem_cons_of_mem _ hMem, hManager⟩

/-- With a manager among the peers one is found. -/
theorem getManagerNode_ok {node : SwarmNode} {others : List SwarmNode} (hMem : node ∈ others)
    (hManager : node.manager = true) : ∃ found, getManagerNode others = .ok found := by
  induction others with
  | nil => cases hMem
  | cons first rest ih =>
      rw [getManagerNode]
      split
      · exact ⟨first, rfl⟩
      · next hFirst =>
          rcases List.mem_cons.mp hMem with rfl | hRest
          · exact absurd hManager hFirst
          · exact ih hRest

/-- A worker of the cluster finds the manager in its list. -/
theorem manager_of_worker (hCluster : OneManager nodes manager) (hIp : ip ∈ nodes.ips) (hWorker : ip ≠ manager) :
    ∃ node, getManagerNode (nodes.info ip).otherNodes = .ok node ∧ node.ip = manager := by
  obtain ⟨node, hMem, hNode⟩ := hCluster.others ip hIp manager hCluster.manager_mem (Ne.symm hWorker)
  obtain ⟨found, hFound⟩ := getManagerNode_ok hMem ((hCluster.roles ip hIp node hMem).mpr hNode)
  obtain ⟨hFoundMem, hRole⟩ := getManagerNode_spec hFound
  exact ⟨found, hFound, (hCluster.roles ip hIp found hFoundMem).mp hRole⟩

/-- The removal of the port, in whichever way it ends, leaves the turn where it was. -/
theorem follows_removing {Value : Type} {serviceID : String} {program : Code Value} {rest : Value → Code Result}
    (hUses : program.Uses anyAnswer Turn.Removes)
    (hRest : ∀ value, (rest value).Follows (turnProtocol manager ip) anyAnswer (.removing serviceID)) :
    (program.bind rest).Follows (turnProtocol manager ip) anyAnswer (.removing serviceID) := by
  apply Program.follows_bind
  have hPermits (op : Op) (hOp : Turn.Removes op) : Turn.permits manager ip (.removing serviceID) op :=
    Or.inr (Or.inl hOp)
  refine Program.follows_of_uses hPermits (fun op answer hOp => ?_) hRest hUses
  cases op with
  | httpPost ip endpoint => cases endpoint <;> first | rfl | exact hOp.elim
  | serviceInspect => exact hOp.elim
  | _ => rfl

theorem follows_scaleTo_setting {serviceID : String} :
    (scaleTo serviceID 1).Follows (turnProtocol manager manager) anyAnswer (.removing serviceID) := by
  refine ⟨Or.inr (Or.inr (Or.inl ⟨rfl, rfl⟩)), fun answer _ => ?_⟩
  cases answer with
  | error err => rfl
  | ok current =>
      dsimp only
      split
      · exact ⟨Or.inr (Or.inl rfl), fun never => nomatch never⟩
      · refine ⟨Or.inr (Or.inr (Or.inr ⟨_, rfl, ServiceSpec.replicas?_setReplicas _ _⟩)), fun answer _ => ?_⟩
        cases answer <;> rfl

/-- The body of an "over" request as part of a turn. -/
theorem follows_asking {Value : Type} {serviceID : String} {seen : UInt64} {point : Point}
    {program : Code Result} {rest : Result → Code Value} {ends : Turn → Value → Prop}
    (h : program.Follows (requestProtocol manager serviceID "over") anyAnswer point)
    (hRest : ∀ turn result, turn.ready = true → (rest result).Follows
      ⟨Turn.permits manager ip, Turn.advance, ends⟩ anyAnswer turn) :
    (program.bind rest).Follows ⟨Turn.permits manager ip, Turn.advance, ends⟩ anyAnswer
      (.asking serviceID seen point) := by
  apply Program.follows_bind
  refine h.embed (Turn.asking serviceID seen) (fun _ _ hOp => Or.inr (Or.inr hOp))
    (fun point op answer hOp => ?_) ?_
  · have hReaches := Point.reaches_of_permits hOp
    cases op with
    | perfRead | recover => cases hReaches
    | _ => rfl
  · intro point result hEnds
    exact hRest _ result (Point.mayEnd_of_ends hEnds)

/-- A panic on the manager ends the turn of a worker. -/
theorem follows_recovered {turn : Turn} {op handler : Op} (hTrap : handler ∈ op.trap)
    (hPermits : Turn.permits manager ip turn op) : Turn.permits manager ip turn handler ∧
      ∀ answer, (turn.advance handler answer).ready = true := by
  obtain ⟨rfl, rfl⟩ := Op.trap_eq_some_iff.mp hTrap
  cases turn with
  | setting => exact ⟨Or.inr (Or.inr (Or.inl rfl)), fun _ => rfl⟩
  | asking => exact ⟨Or.inr (Or.inl rfl), fun _ => rfl⟩
  | waiting | woken => simp [Turn.permits] at hPermits
  | looking | removing | posted => simp [Turn.permits, Turn.Removes] at hPermits

/-- A worker's request goes through the same points on the manager as a request of its
own. -/
theorem follows_scaleRequest_posted (hManager : (nodes.info manager).autoscalerManager = true)
    (hWorker : ip ≠ manager) {serviceID : String} :
    (sendScaleRequest (changeServiceReplicas ⟨manager, nodes.info manager⟩) serviceID "over" manager).Follows
      (turnProtocol manager ip) anyAnswer (.removing serviceID) := by
  refine ⟨Or.inr (Or.inr (Or.inr ⟨hWorker, rfl⟩)), fun answer _ => ?_⟩
  cases answer with
  | error err => rfl
  | ok _ =>
      refine Program.follows_attempt (fun _ _ _ hTrap hPermits => ?_) ?_
      · obtain ⟨hHandler, hReady⟩ := follows_recovered hTrap hPermits
        exact ⟨hHandler, fun answer _ => hReady answer⟩
      simp only [createScalerHandler, handle, changeServiceReplicas, hManager, Bool.not_true, Bool.false_eq_true,
        ↓reduceIte, ne_eq, not_true_eq_false]
      refine ⟨Or.inr rfl, fun answer _ => ?_⟩
      cases answer with
      | error err => rfl
      | ok service =>
          simp only [turnProtocol, Turn.advance]
          cases hReplicas : service.spec.replicas? with
          | none => rfl
          | some seen =>
              have hPoint : Point.inspected "over" service = .looking service seen := by
                simp [Point.inspected, hReplicas]
              rw [hPoint]
              apply follows_asking (follows_changeOver_looking hReplicas)
              intro turn result hReady
              cases result <;> exact hReady

/-- The scaling of a turn, on the manager or by way of it. -/
theorem follows_scaleBackUp (hCluster : OneManager nodes manager) (hIp : ip ∈ nodes.ips) {serviceID : String} :
    (scaleBackUp nodes ip serviceID).Follows (turnProtocol manager ip) anyAnswer (.removing serviceID) := by
  have hManager := (hCluster.manages manager hCluster.manager_mem).mpr rfl
  unfold scaleBackUp
  split
  · next hSelf =>
      obtain rfl := (hCluster.manages ip hIp).mp hSelf
      exact follows_scaleTo_setting
  · next hWorker =>
      have hOther : ip ≠ manager := by
        intro hSame
        exact hWorker ((hCluster.manages ip hIp).mpr hSame)
      obtain ⟨node, hNode, hAddress⟩ := manager_of_worker hCluster hIp hOther
      simp only [hNode, hAddress]
      exact follows_scaleRequest_posted hManager hOther

theorem ready_of_readError {turn : Turn} (h : turn.ready = true) {err : String} :
    (turn.advance (.perfRead ip) (.error err)).ready = true := by
  cases turn <;> first | rfl | cases h

theorem looking_of_read {turn : Turn} (h : turn.ready = true) {sample : List UInt8} :
    ∃ handled, turn.advance (.perfRead ip) (.ok sample) = .looking handled := by
  cases turn with
  | waiting => exact ⟨false, rfl⟩
  | looking handled => exact ⟨handled, rfl⟩
  | woken | asking => exact ⟨true, rfl⟩
  | removing | setting | posted => cases h

/-- One turn of an event loop keeps to the protocol, wherever the turn before it has
ended. -/
theorem follows_turn (hCluster : OneManager nodes manager) (hIp : ip ∈ nodes.ips) {turn : Turn}
    (hReady : turn.ready = true) :
    (listenForEvents nodes ip).Follows (turnProtocol manager ip) anyAnswer turn := by
  refine ⟨Or.inl ⟨hReady, rfl⟩, fun answer _ => ?_⟩
  cases answer with
  | error err => exact ready_of_readError hReady
  | ok rawSample =>
      obtain ⟨handled, hTurn⟩ := @looking_of_read ip turn hReady rawSample
      show Program.Follows _ _ (turn.advance (.perfRead ip) (.ok rawSample)) _
      rw [hTurn]
      dsimp only
      split
      · refine ⟨Or.inr ⟨_, rfl⟩, fun found _ => ?_⟩
        cases found with
        | none => cases handled <;> rfl
        | some serviceID =>
            have removes (ip' : String) : (removePort ip' (littleEndianUint32 (rawSample.take 4))).Uses anyAnswer
                Turn.Removes := uses_removePort trivial trivial trivial
            apply follows_removing (removes ip)
            intro _
            apply follows_removing (uses_broadcast fun ip' =>
              uses_post (show Turn.Removes (.httpPost ip' .remove) from trivial) False.elim fun _ => removes ip')
            intro _
            exact follows_scaleBackUp hCluster hIp
      · rfl

variable {s t : State} {action : Action}

/-- Every step keeps the tracking of the turns. -/
theorem turns_step (hCluster : OneManager nodes manager) (hLogged : Machine.Logged s)
    (h : Machine.EachThread (turns nodes manager).Tracked s) (hStep : (machine nodes).step s action = some t) :
    Machine.EachThread (turns nodes manager).Tracked t := by
  refine (turns nodes manager).tracked_step (machine nodes) (fun call => ?_) ?_ hLogged h hStep
  · cases call with
    | listener ip =>
        simp only [turns]
        split
        · next hIp => exact follows_turn hCluster hIp rfl
        · exact Program.follows_free _
    | request | keepAlive => exact Program.follows_free _
  · intro call turn result program hEnds hAgain
    cases call with
    | listener ip =>
        cases hAgain
        simp only [turns] at hEnds ⊢
        split at hEnds
        · next hIp =>
            rw [if_pos hIp]
            exact follows_turn hCluster hIp hEnds
        · next hIp =>
            rw [if_neg hIp]
            exact Program.follows_free _
    | request | keepAlive => cases hAgain

end Code

section Condition

/-- The manager assigns one replica at no more than one, a worker's request that is
written has seen none. -/
def Turn.apt (count : Option UInt64) : Turn → Prop
  | .setting _ _ => ∃ n ∈ count, n ≤ 1
  | .asking _ seen (.writing _ _) => seen = 0
  | _ => True

instance (count : Option UInt64) : DecidablePred (Turn.apt count)
  | .setting _ _ => inferInstanceAs (Decidable (∃ n ∈ count, n ≤ 1))
  | .asking _ seen (.writing _ _) => inferInstanceAs (Decidable (seen = 0))
  | .asking _ _ .fresh | .asking _ _ (.looking _ _) | .asking _ _ (.sending _ _)
  | .asking _ _ (.cancelling _) | .asking _ _ (.constraining _ _) | .asking _ _ (.starting _ _)
  | .asking _ _ (.naming _ _ _) | .asking _ _ (.started _) | .asking _ _ (.committed _)
  | .asking _ _ .succeeded | .asking _ _ .kept | .asking _ _ .failed => isTrue trivial
  | .waiting | .looking _ | .removing _ | .posted _ | .woken => isTrue trivial

/-- Every update of the service that Docker takes from a wake-up is apt. -/
def Apt (nodes : Nodes) (manager serviceID : String) (s : State) : Action → Prop
  | .step i fail => ∀ thread ∈ s.threads[i]?, ∀ version ∈ thread.program.head.bind (Op.updateOf serviceID),
      Accepts fail s.world serviceID version →
        ∀ turn ∈ (turns nodes manager).running s i, turn.apt (s.world.replicas serviceID)
  | _ => True

instance (nodes : Nodes) (manager serviceID : String) (s : State) : DecidablePred (Apt nodes manager serviceID s)
  | .step i fail => inferInstanceAs (Decidable (∀ thread ∈ s.threads[i]?,
      ∀ version ∈ thread.program.head.bind (Op.updateOf serviceID), Accepts fail s.world serviceID version →
        ∀ turn ∈ (turns nodes manager).running s i, turn.apt (s.world.replicas serviceID)))
  | .invoke _ | .meet _ _ | .disturb _ => isTrue trivial

end Condition

section Count

variable {replicas seen count : UInt64} {base version : Nat}

/-- The count of each version, when every update that was taken left at least one replica. -/
def countAt (base : Nat) (replicas : UInt64) (version : Nat) : UInt64 :=
  if version = base then replicas else atLeastOne replicas

/-- The count a copy can show: that of the start, or the one after a wake-up. -/
def Counted (replicas seen : UInt64) : Prop := seen = replicas ∨ seen = atLeastOne replicas

theorem counted_countAt : Counted replicas (countAt base replicas version) := by
  unfold countAt
  split
  · exact Or.inl rfl
  · exact Or.inr rfl

/-- After any update the count is that of a service that has been woken up. -/
theorem countAt_succ (h : base ≤ version) : countAt base replicas (version + 1) = atLeastOne replicas := by
  rw [countAt, if_neg (by omega)]

theorem atLeastOne_of_counted_le (h : Counted replicas count) (hLe : count ≤ 1) : atLeastOne replicas = 1 := by
  unfold Counted atLeastOne at *
  have hNat : count.toNat ≤ 1 := UInt64.le_iff_toNat_le.mp hLe
  split at h
  · next hZero => rw [if_pos hZero]
  · next hNonzero =>
      rw [if_neg hNonzero]
      have hSame : count = replicas := by rcases h with h | h <;> exact h
      have hPositive : replicas.toNat ≠ 0 := fun hZero => hNonzero (UInt64.toNat_inj.mp hZero)
      rw [hSame] at hNat
      apply UInt64.toNat_inj.mp
      show replicas.toNat = 1
      omega

theorem le_one_of_counted_one (h : Counted replicas count) (hOne : Counted replicas 1) : count ≤ 1 := by
  unfold Counted atLeastOne at *
  split at h
  · next hZero =>
      rcases h with rfl | rfl
      · rw [hZero]
        decide
      · decide
  · next hNonzero =>
      have hReplicas : (1 : UInt64) = replicas := by
        rw [if_neg hNonzero] at hOne
        rcases hOne with hOne | hOne <;> exact hOne
      have hSame : count = replicas := by rcases h with h | h <;> exact h
      rw [hSame, ← hReplicas]
      exact UInt64.le_refl 1

/-- An "over" request leaves the right count exactly when it saw the service asleep. -/
theorem succ_counted_iff (h : Counted replicas seen) : Counted replicas (seen + 1) ↔ seen = 0 := by
  have hNext (n : UInt64) : n + 1 ≠ n := by
    intro hSame
    have hZero : (1 : UInt64) = 0 := by
      calc (1 : UInt64) = n + 1 - n := by rw [UInt64.add_comm, UInt64.add_sub_cancel]
        _ = 0 := by rw [hSame, UInt64.sub_self]
    exact absurd hZero (by decide)
  unfold Counted atLeastOne at *
  split at h
  · next hZero =>
      subst hZero
      rcases h with rfl | rfl <;> decide
  · next hNonzero =>
      have hSame : seen = replicas := by rcases h with h | h <;> exact h
      rw [if_neg hNonzero, hSame]
      constructor
      · intro hSucc
        rcases hSucc with hSucc | hSucc <;> exact absurd hSucc (hNext replicas)
      · intro hZero
        exact absurd hZero hNonzero

end Count

section Invariant

variable {nodes : Nodes} {manager serviceID ip : String} {replicas seen : UInt64} {base version : Nat}
  {s t : State} {action : Action} {w w' : World} {i : Nat} {op : Op} {answer : op.Answer}
  {next : op.Answer → Code Result} {turn : Turn} {point : Point} {stored : Service}

/-- The service as it was at some version since the start, up to the given one. -/
def Inspected (serviceID : String) (base : Nat) (replicas : UInt64) (version : Nat) (service : Service) : Prop :=
  service.id = serviceID ∧ base ≤ service.version ∧ service.version ≤ version ∧
    service.spec.replicas? = some (countAt base replicas service.version)

/-- What a worker's request knows at each point when the service has the given version. -/
def Asked (serviceID : String) (base : Nat) (replicas : UInt64) (version : Nat) (seen : UInt64) : Point → Prop
  | .looking service current => current = seen ∧ Counted replicas seen ∧
      service.spec.replicas? = some seen ∧ Inspected serviceID base replicas version service
  | .sending _ _ => True
  | .committed newReplicas => newReplicas = seen + 1 ∧ Counted replicas seen
  | .writing current newReplicas => newReplicas = seen + 1 ∧ Counted replicas seen ∧
      Inspected serviceID base replicas version current
  | .succeeded | .failed => base < version
  | _ => False

/-- What an event loop knows in each turn. -/
def Knows (serviceID : String) (base : Nat) (replicas : UInt64) (version : Nat) : Turn → Prop
  | .waiting => True
  | .looking handled => handled = true → base < version
  | .removing id | .posted id => id = serviceID
  | .setting id current => id = serviceID ∧ Inspected serviceID base replicas version current
  | .asking id seen point => id = serviceID ∧ Asked serviceID base replicas version seen point
  | .woken => base < version

/-- The invariant of the undisturbed runs from a sleeping service: only event loops run,
they keep to their protocol, and what each of them has seen of the service fits the one that
is stored. -/
structure WakeInv (nodes : Nodes) (manager serviceID : String) (replicas : UInt64) (base : Nat) (s : State) :
    Prop where
  logged : Machine.Logged s
  tracked : Machine.EachThread (turns nodes manager).Tracked s
  kinds : ∀ (i : Nat) (thread : Thread signature Call Result), s.threads[i]? = some thread →
    ∃ ip ∈ nodes.ips, thread.call = .listener ip
  names : ∀ key id, s.world.portToServiceID key = some id → id = serviceID
  stored : ∃ service, s.world.services serviceID = some service ∧
    Inspected serviceID base replicas service.version service ∧
      ∀ i turn, (turns nodes manager).running s i = some turn → Knows serviceID base replicas service.version turn

theorem Inspected.mono {service : Service} {later : Nat} (h : Inspected serviceID base replicas version service)
    (hLe : version ≤ later) : Inspected serviceID base replicas later service := by
  obtain ⟨hId, hBase, hVersion, hCount⟩ := h
  exact ⟨hId, hBase, by omega, hCount⟩

/-- What a loop has seen of the service stays right when the version only grows. -/
theorem Knows.mono {later : Nat} (h : Knows serviceID base replicas version turn) (hLe : version ≤ later) :
    Knows serviceID base replicas later turn := by
  cases turn with
  | looking handled =>
      intro hHandled
      have hLt := h hHandled
      omega
  | setting id current => exact ⟨h.1, h.2.mono hLe⟩
  | asking id seen point =>
      refine ⟨h.1, ?_⟩
      have hAsked := h.2
      cases point with
      | looking service current =>
          obtain ⟨hCurrent, hCounted, hReplicas, hInspected⟩ := hAsked
          exact ⟨hCurrent, hCounted, hReplicas, hInspected.mono hLe⟩
      | writing current newReplicas =>
          obtain ⟨hNew, hCounted, hInspected⟩ := hAsked
          exact ⟨hNew, hCounted, hInspected.mono hLe⟩
      | succeeded | failed =>
          have hLt : base < version := hAsked
          show base < later
          omega
      | _ => exact hAsked
  | woken =>
      have hLt : base < version := h
      show base < later
      omega
  | _ => exact h

/-- What a step of a turn leads to: the stored service, which only gets newer, and what
the loop knows next. -/
def Leads (serviceID : String) (base : Nat) (replicas : UInt64) (stored : Service) (w' : World) (turn : Turn) :
    Prop :=
  ∃ service, w'.services serviceID = some service ∧ stored.version ≤ service.version ∧
    Inspected serviceID base replicas service.version service ∧ Knows serviceID base replicas service.version turn

theorem leads_of_other (hStored : w.services serviceID = some stored)
    (hInspected : Inspected serviceID base replicas stored.version stored)
    (hSame : w'.services serviceID = w.services serviceID)
    (hKnows : Knows serviceID base replicas stored.version turn) :
    Leads serviceID base replicas stored w' turn :=
  ⟨stored, hSame.trans hStored, Nat.le_refl _, hInspected, hKnows⟩

/-- An update under the version of an inspected copy is taken and leaves at least one
replica, or it is refused because another one has been taken before. -/
theorem leads_of_update (turns : Except String Unit → Turn) {copy : Service} {spec : ServiceSpec} {fail : Bool}
    {answer : Except String Unit} (hFail : fail = false)
    (hStored : w.services serviceID = some stored)
    (hInspected : Inspected serviceID base replicas stored.version stored)
    (hCopy : Inspected serviceID base replicas stored.version copy)
    (answered : exec nodes i (.serviceUpdate serviceID copy.version spec) fail w = some (answer, w'))
    (hSpec : Accepts fail w serviceID copy.version → spec.replicas? = some (atLeastOne replicas))
    (hTaken : ∀ later, base < later → stored.version ≤ later →
      Knows serviceID base replicas later (turns (.ok ())))
    (hRefused : ∀ err, base < stored.version → Knows serviceID base replicas stored.version (turns (.error err))) :
    Leads serviceID base replicas stored w' (turns answer) := by
  rcases update_of_exec answered with ⟨hAccepts, rfl, service, hService, rfl⟩ | ⟨hNot, ⟨err, rfl⟩, rfl⟩
  · obtain rfl := Option.some.inj (hStored.symm.trans hService)
    have hVersion : stored.version = copy.version := by
      have hCurrent := hAccepts.2
      rw [hStored] at hCurrent
      exact Option.some.inj hCurrent
    have hBase : base ≤ copy.version := hCopy.2.1
    refine ⟨{ stored with version := copy.version + 1, spec := spec }, by simp, ?_, ?_, ?_⟩
    · show stored.version ≤ copy.version + 1
      omega
    · refine ⟨hInspected.1, ?_, Nat.le_refl _, ?_⟩
      · show base ≤ copy.version + 1
        omega
      · show spec.replicas? = some (countAt base replicas (copy.version + 1))
        rw [countAt_succ hBase, hSpec hAccepts]
    · apply hTaken
      · show base < copy.version + 1
        omega
      · show stored.version ≤ copy.version + 1
        omega
  · have hOlder : copy.version ≠ stored.version := by
      intro hSame
      apply hNot
      refine ⟨hFail, ?_⟩
      rw [hStored, hSame]
      rfl
    have hBase := hCopy.2.1
    have hLe := hCopy.2.2.1
    exact leads_of_other hStored hInspected rfl (hRefused err (by omega))

theorem woken_of_ready {id : String} (h : Knows serviceID base replicas version (.asking id seen point))
    (hReady : point.mayEnd = true) : base < version := by
  cases point with
  | succeeded | failed => exact h.2
  | fresh | kept => exact h.2.elim
  | _ => cases hReady

theorem Knows.read (h : Knows serviceID base replicas version turn) (hReady : turn.ready = true)
    (answer : Except String (List UInt8)) :
    Knows serviceID base replicas version (turn.advance (.perfRead ip) answer) := by
  cases turn with
  | waiting =>
      cases answer with
      | error err => trivial
      | ok sample => exact fun hHandled => nomatch hHandled
  | looking handled => exact h
  | woken =>
      cases answer with
      | error err => exact h
      | ok sample => exact fun _ => h
  | asking id seen point =>
      have hLt := woken_of_ready h hReady
      cases answer with
      | error err => exact hLt
      | ok sample => exact fun _ => hLt
  | removing | setting | posted => cases hReady

section Turns

/-- An inspect that does not fail shows the stored service. -/
theorem leads_of_inspect {id : String} {answer : Except String Service}
    (hStored : w.services serviceID = some stored)
    (answered : exec nodes i (.serviceInspect id) false w = some (answer, w')) (hId : id = serviceID) :
    answer = .ok stored ∧ w' = w := by
  subst hId
  simp only [exec, perform, hStored, Bool.false_eq_true, ↓reduceIte] at answered
  cases answered
  exact ⟨rfl, rfl⟩

/-- A step of a worker's request. -/
theorem leads_of_asking {id : String} (hStored : w.services serviceID = some stored)
    (hInspected : Inspected serviceID base replicas stored.version stored)
    (hKnows : Knows serviceID base replicas stored.version (.asking id seen point))
    (hPermits : point.permits manager id op) (answered : exec nodes i op false w = some (answer, w'))
    (hApt : ∀ version ∈ op.updateOf serviceID, Accepts false w serviceID version →
      (Turn.asking id seen point).apt (w.replicas serviceID)) :
    Leads serviceID base replicas stored w' (.asking id seen (point.advance "over" op answer)) := by
  obtain ⟨rfl, hAsked⟩ := hKnows
  have hEffect := effect_of_exec answered
  cases point with
  | looking service current =>
      obtain ⟨rfl, hCounted, hReplicas, hCopy⟩ := hAsked
      rcases hPermits with rfl | rfl | ⟨rfl, spec, rfl, hSpec⟩
      · refine leads_of_other hStored hInspected (services_of_effect hEffect rfl) ?_
        cases answer with
        | none => exact ⟨rfl, rfl, hCounted⟩
        | some ch => exact ⟨rfl, trivial⟩
      · exact answer.elim
      · obtain rfl := hCopy.1
        refine leads_of_update (fun answer => .asking service.id 1 (Point.advance "over" (.looking service 1)
          (.serviceUpdate service.id service.version spec) answer)) rfl hStored hInspected hCopy answered ?_ ?_ ?_
        · intro _
          rw [hSpec, atLeastOne_of_counted_le hCounted (UInt64.le_refl 1)]
        · intro later hLt hLe
          exact ⟨rfl, rfl, hCounted, hReplicas, hCopy.mono hLe⟩
        · exact fun err hLt => ⟨rfl, hLt⟩
  | sending current ch =>
      obtain rfl : op = .chanSend ch := hPermits
      cases answered
  | committed newReplicas =>
      obtain rfl : op = .serviceInspect id := hPermits
      obtain ⟨rfl, rfl⟩ := leads_of_inspect hStored answered rfl
      exact leads_of_other hStored hInspected rfl ⟨rfl, hAsked.1, hAsked.2, hInspected⟩
  | writing current newReplicas =>
      obtain ⟨rfl, hCounted, hCopy⟩ := hAsked
      rcases hPermits with rfl | ⟨spec, rfl, hSpec⟩
      · exact answer.elim
      · refine leads_of_update (fun answer => .asking id seen (Point.advance "over" (.writing current (seen + 1))
          (.serviceUpdate id current.version spec) answer)) rfl hStored hInspected hCopy answered ?_ ?_ ?_
        · intro hAccepts
          have hZero : seen = 0 := hApt current.version (by simp [Op.updateOf]) hAccepts
          rw [hSpec, hZero]
          have hOne := atLeastOne_of_counted_le (hZero ▸ hCounted) (by decide)
          rw [hOne]
          rfl
        · exact fun later hLt _ => ⟨rfl, hLt⟩
        · exact fun err hLt => ⟨rfl, hLt⟩
  | fresh | cancelling | constraining | starting | naming | started | kept => exact hAsked.elim
  | succeeded | failed => exact hPermits.elim

/-- What one operation of a turn leads to: the service is as before, or it is updated once,
from what the loop has seen. The cases are those of the protocol. -/
theorem leads_of_turn (hServes : nodes.serves manager .scale = true)
    (hNames : ∀ key id, w.portToServiceID key = some id → id = serviceID)
    (hStored : w.services serviceID = some stored)
    (hInspected : Inspected serviceID base replicas stored.version stored)
    (hKnows : Knows serviceID base replicas stored.version turn) (hPermits : turn.permits manager ip op)
    (answered : exec nodes i op false w = some (answer, w'))
    (hApt : ∀ version ∈ op.updateOf serviceID, Accepts false w serviceID version →
      turn.apt (w.replicas serviceID)) :
    Leads serviceID base replicas stored w' (turn.advance op answer) := by
  have hEffect := effect_of_exec answered
  rcases hPermits with ⟨hReady, rfl⟩ | hTurn
  · exact leads_of_other hStored hInspected (services_of_effect hEffect rfl) (hKnows.read hReady answer)
  · cases turn with
    | waiting | woken => exact hTurn.elim
    | looking handled =>
        obtain ⟨port, rfl⟩ := hTurn
        refine leads_of_other hStored hInspected (services_of_effect hEffect rfl) ?_
        have hFound : answer = w.portToServiceID (ip, port) := by
          cases answered
          rfl
        cases answer with
        | none =>
            cases handled with
            | false => trivial
            | true => exact hKnows rfl
        | some id => exact hNames _ id hFound.symm
    | removing id =>
        rcases hTurn with hRemoves | ⟨_, rfl⟩ | ⟨_, rfl⟩
        · have hOther : op.updateOf serviceID = none := by cases op <;> first | rfl | exact hRemoves.elim
          have hStay : Turn.advance (.removing id) op answer = .removing id := by
            cases op with
            | httpPost ip endpoint => cases endpoint <;> first | rfl | exact hRemoves.elim
            | serviceInspect => exact hRemoves.elim
            | _ => rfl
          rw [hStay]
          exact leads_of_other hStored hInspected (services_of_effect hEffect hOther) hKnows
        · obtain ⟨rfl, rfl⟩ := leads_of_inspect hStored answered hKnows
          exact leads_of_other hStored hInspected rfl ⟨hKnows, hInspected⟩
        · have hDelivered : answer = .ok () := by
            simp only [exec, perform, hServes, Bool.false_eq_true, ↓reduceIte] at answered
            cases answered
            rfl
          subst hDelivered
          exact leads_of_other hStored hInspected (services_of_effect hEffect rfl) hKnows
    | setting id current =>
        obtain ⟨rfl, hCopy⟩ := hKnows
        rcases hTurn with rfl | rfl | ⟨spec, rfl, hSpec⟩
        · exact answer.elim
        · cases answered
        · refine leads_of_update (fun answer => Turn.advance (.setting id current)
            (.serviceUpdate id current.version spec) answer) rfl hStored hInspected hCopy answered ?_ ?_ ?_
          · intro hAccepts
            obtain ⟨count, hCount, hLe⟩ := hApt current.version (by simp [Op.updateOf]) hAccepts
            have hReplicas : countAt base replicas stored.version = count := by
              have hNow : stored.spec.replicas? = some count := by simpa [World.replicas, hStored] using hCount
              exact Option.some.inj (hInspected.2.2.2.symm.trans hNow)
            rw [hSpec, atLeastOne_of_counted_le (hReplicas ▸ counted_countAt) hLe]
          · exact fun later hLt _ => hLt
          · exact fun err hLt => hLt
    | posted id =>
        obtain rfl : op = .serviceInspect id := hTurn
        obtain ⟨rfl, rfl⟩ := leads_of_inspect hStored answered hKnows
        refine leads_of_other hStored hInspected rfl ?_
        have hReplicas := hInspected.2.2.2
        simp only [Turn.advance, Point.inspected, hReplicas]
        exact ⟨hKnows, rfl, counted_countAt, hReplicas, hInspected⟩
    | asking id seen point =>
        rcases hTurn with rfl | hTurn
        · cases answered
        have hAdvance : Turn.advance (.asking id seen point) op answer =
            .asking id seen (point.advance "over" op answer) := by
          have hReaches := Point.reaches_of_permits hTurn
          cases op with
          | perfRead | recover => cases hReaches
          | _ => rfl
        rw [hAdvance]
        exact leads_of_asking hStored hInspected hKnows hTurn answered hApt

end Turns

theorem listener_protocol (hIp : ip ∈ nodes.ips) :
    (turns nodes manager).protocol (.listener ip) = turnProtocol manager ip := if_pos hIp

/-- What a thread is about to do, in terms of its turn. -/
theorem WakeInv.at_turn {call : Call} (hInv : WakeInv nodes manager serviceID replicas base s)
    (atOp : s.threads[i]? = some ⟨call, .perform op next⟩) :
    ∃ ip ∈ nodes.ips, call = .listener ip ∧
      Turn.permits manager ip ((turns nodes manager).phase s.log i call) op := by
  obtain ⟨ip, hIp, hCall⟩ := hInv.kinds i _ atOp
  obtain rfl : call = .listener ip := hCall
  have hTracked := hInv.tracked i _ atOp
  rw [Tracking.Tracked, listener_protocol hIp] at hTracked
  exact ⟨ip, hIp, rfl, hTracked.1⟩

theorem names_of_effect (hEffect : Effect w op answer w')
    (hNoStore : ∀ ip port id, op ≠ .portToServiceIDStore ip port id)
    (hNames : ∀ key id, w.portToServiceID key = some id → id = serviceID) :
    ∀ key id, w'.portToServiceID key = some id → id = serviceID := by
  intro key id hId
  cases hEffect with
  | portStore ip port id' => exact absurd rfl (hNoStore ip port id')
  | portDelete ip port =>
      by_cases hKey : key = (ip, port)
      · simp [hKey] at hId
      · exact hNames key id (by simpa [Function.update_of_ne hKey] using hId)
  | _ => exact hNames key id hId

/-- The operations that occur in turns. -/
def performs : Op → Bool
  | .portToServiceIDStore _ _ _ | .portsMapUpdate _ _ _ | .selectTimer _ _ | .goKeepAlive _ _ _ => false
  | _ => true

theorem performs_of_permits (hKnows : Knows serviceID base replicas version turn)
    (h : turn.permits manager ip op) :
    performs op = true := by
  rcases h with ⟨_, rfl⟩ | hTurn
  · rfl
  · cases turn with
    | waiting | woken => exact hTurn.elim
    | looking =>
        obtain ⟨_, rfl⟩ := hTurn
        rfl
    | removing =>
        rcases hTurn with hRemoves | ⟨_, rfl⟩ | ⟨_, rfl⟩
        · cases op <;> first | rfl | exact hRemoves.elim
        · rfl
        · rfl
    | setting => rcases hTurn with rfl | rfl | ⟨_, rfl, _⟩ <;> rfl
    | posted =>
        obtain rfl : op = _ := hTurn
        rfl
    | asking id seen point =>
        have hAsked := hKnows.2
        rcases hTurn with rfl | hTurn
        · rfl
        have hReaches := Point.reaches_of_permits hTurn
        cases op with
        | goKeepAlive ip id ch =>
            cases point with
            | looking => rcases hTurn with hOp | hOp | ⟨_, _, hOp, _⟩ <;> cases hOp
            | writing => rcases hTurn with hOp | ⟨_, hOp, _⟩ <;> cases hOp
            | sending | committed => cases hTurn
            | succeeded | failed => exact hTurn.elim
            | _ => exact hAsked.elim
        | portToServiceIDStore | portsMapUpdate | selectTimer => cases hReaches
        | _ => rfl

theorem WakeInv.services (hInv : WakeInv nodes manager serviceID replicas base s) :
    ∃ stored, s.world.services serviceID = some stored ∧
      Inspected serviceID base replicas stored.version stored ∧
        s.world.replicas serviceID = some (countAt base replicas stored.version) := by
  obtain ⟨stored, hStored, hInspected, _⟩ := hInv.stored
  refine ⟨stored, hStored, hInspected, ?_⟩
  rw [World.replicas, hStored]
  exact hInspected.2.2.2

/-- One operation of an event loop keeps the invariant, from what it leads to. -/
theorem WakeInv.step_listener {world : World} (hCluster : OneManager nodes manager)
    (hInv : WakeInv nodes manager serviceID replicas base s) {call : Call}
    (atOp : s.threads[i]? = some ⟨call, .perform op next⟩)
    (answered : exec nodes i op false s.world = some (answer, world))
    (hTracked : Machine.EachThread (turns nodes manager).Tracked
      ((machine nodes).resume { s with world := world } i call op next answer))
    (hApt : Apt nodes manager serviceID s (.step i false)) :
    WakeInv nodes manager serviceID replicas base
      ((machine nodes).resume { s with world := world } i call op next answer) := by
  obtain ⟨ip, hIp, rfl, hPermits⟩ := hInv.at_turn atOp
  have hAt := (turns nodes manager).running_of_perform atOp
  obtain ⟨stored, hStored, hInspected, hKnows⟩ := hInv.stored
  have hServes : nodes.serves manager .scale = true := by
    have hManager := (hCluster.manages manager hCluster.manager_mem).mpr rfl
    simp [Nodes.serves, hManager, hCluster.manager_mem]
  have hMine := hKnows i _ hAt
  have hPerforms := performs_of_permits hMine hPermits
  have hFork : (machine nodes).forks op = none := by cases op <;> first | rfl | cases hPerforms
  obtain ⟨service, hService, hLe, hNext, hNow⟩ :=
    leads_of_turn hServes hInv.names hStored hInspected hMine hPermits
    answered fun version hVersion hAccepts => hApt _ atOp version hVersion hAccepts _ hAt
  refine ⟨Machine.Logged.resume (machine nodes) (s := { s with world := world }) hInv.logged atOp answer, hTracked,
    ?_, ?_, ?_⟩
  · intro j thread hThread
    rcases (machine nodes).resume_threads hThread with ⟨_, rfl⟩ | ⟨_, hOld⟩ | ⟨_, child, hChild, _⟩
    · exact ⟨ip, hIp, rfl⟩
    · exact hInv.kinds j thread hOld
    · cases hFork.symm.trans hChild
  · apply names_of_effect (effect_of_exec answered) _ hInv.names
    rintro _ _ _ rfl
    cases hPerforms
  · refine ⟨service, hService, hNext, fun j turn hTurn => ?_⟩
    rcases (turns nodes manager).running_resume (machine nodes) (s := { s with world := world }) atOp hInv.logged
        hTurn with ⟨_, rfl⟩ | ⟨_, hOld⟩ | ⟨_, child, hChild, _⟩
    · rw [listener_protocol hIp]
      exact hNow
    · exact (hKnows j turn hOld).mono hLe
    · cases hFork.symm.trans hChild

theorem names_of_disturb {env : Env} (h : disturb env w = some w') : w'.portToServiceID = w.portToServiceID := by
  obtain ⟨ip, port⟩ := env
  simp only [disturb] at h
  split at h <;> cases h <;> rfl

/-- Every step that satisfies the condition keeps the invariant. -/
theorem WakeInv.step (hCluster : OneManager nodes manager)
    (hInv : WakeInv nodes manager serviceID replicas base s) (hAllowed : Undisturbed s action)
    (hApt : Apt nodes manager serviceID s action) (hStep : (machine nodes).step s action = some t) :
    WakeInv nodes manager serviceID replicas base t := by
  have hTracked := turns_step hCluster hInv.logged hInv.tracked hStep
  cases (machine nodes).stepCase_of_step hStep with
  | invoke call => exact hAllowed.elim
  | @step i fail call op next answer world atOp answered =>
      obtain rfl : fail = false := hAllowed
      exact hInv.step_listener hCluster atOp answered hTracked hApt
  | meet atSend atReceive apart met waits =>
      obtain ⟨ch, keepAlive, rfl, rfl⟩ := channel_of_meet met
      obtain ⟨ip, hIp, rfl, hPermits⟩ := hInv.at_turn atReceive
      obtain ⟨stored, _, _, hKnows⟩ := hInv.stored
      have hAt := (turns nodes manager).running_of_perform atReceive
      cases performs_of_permits (hKnows _ _ hAt) hPermits
  | disturb happens =>
      refine ⟨hInv.logged, hTracked, hInv.kinds, ?_, ?_⟩
      · rw [names_of_disturb happens]
        exact hInv.names
      · rw [(disturb_eq happens).2]
        exact hInv.stored

/-- A loop that waits for the next packet after it has handled one leaves at least one replica. -/
theorem Knows.handled {id : String} (hKnows : Knows serviceID base replicas version turn)
    (hHandled : turn.handled = true) (hPermits : turn.permits manager ip (.perfRead id)) : base < version := by
  rcases hPermits with ⟨hReady, _⟩ | hTurn
  · cases turn with
    | waiting => cases hHandled
    | looking handled => exact hKnows hHandled
    | woken => exact hKnows
    | asking => exact woken_of_ready hKnows hReady
    | removing | setting | posted => cases hReady
  · cases turn with
    | waiting | woken => exact hTurn.elim
    | looking =>
        obtain ⟨_, hOp⟩ := hTurn
        cases hOp
    | removing =>
        rcases hTurn with hRemoves | ⟨_, hOp⟩ | ⟨_, hOp⟩
        · exact hRemoves.elim
        · cases hOp
        · cases hOp
    | setting => rcases hTurn with hOp | hOp | ⟨_, hOp, _⟩ <;> cases hOp
    | posted => cases hTurn
    | asking =>
        rcases hTurn with hOp | hTurn
        · cases hOp
        · cases Point.reaches_of_permits hTurn

/-- In a state of the invariant the service has been woken up at most once. -/
theorem WakeInv.wokenOnce (hInv : WakeInv nodes manager serviceID replicas base s) :
    WokenOnce nodes manager serviceID replicas s := by
  obtain ⟨stored, hStored, hInspected, hKnows⟩ := hInv.stored
  have hReplicas : s.world.replicas serviceID = some (countAt base replicas stored.version) := by
    rw [World.replicas, hStored]
    exact hInspected.2.2.2
  refine ⟨_, hReplicas, counted_countAt, ?_⟩
  rintro ⟨hIdle, i, hLt, turn, hTurn, hHandled⟩
  have hThread : s.threads[i]? = some s.threads[i] := List.getElem?_eq_getElem hLt
  generalize s.threads[i] = thread at hThread
  obtain ⟨call, program⟩ := thread
  obtain ⟨ip, hIp, hCall⟩ := hInv.kinds i _ hThread
  obtain rfl : call = .listener ip := hCall
  have hThreadIdle := hIdle _ (List.mem_of_getElem? hThread)
  cases program with
  | done result => simp [Tracking.running, hThread] at hTurn
  | perform op next =>
      rw [(turns nodes manager).running_of_perform hThread] at hTurn
      obtain rfl := Option.some.inj hTurn
      obtain ⟨_, _, hSame, hPermits⟩ := hInv.at_turn hThread
      cases hSame
      have hRead : ∃ id, op = .perfRead id := by
        cases op with
        | perfRead id => exact ⟨id, rfl⟩
        | _ => cases hThreadIdle
      obtain ⟨id, rfl⟩ := hRead
      have hLt := (hKnows i _ ((turns nodes manager).running_of_perform hThread)).handled hHandled hPermits
      rw [countAt, if_neg (by omega)]

/-- An update that Docker takes and that leaves an admitted count was apt. -/
theorem WakeInv.apt_of_counted (hInv : WakeInv nodes manager serviceID replicas base s) {call : Call}
    {spec : ServiceSpec}
    {next : signature.Answer (.serviceUpdate serviceID version spec) → Code Result} {count : UInt64}
    (atOp : s.threads[i]? = some ⟨call, .perform (.serviceUpdate serviceID version spec) next⟩)
    (hCount : spec.replicas? = some count) (hCounted : Counted replicas count) :
    ((turns nodes manager).phase s.log i call).apt (s.world.replicas serviceID) := by
  obtain ⟨ip, hIp, _, hPermits⟩ := hInv.at_turn atOp
  obtain ⟨stored, hStored, hInspected, hKnows⟩ := hInv.stored
  have hReplicas : s.world.replicas serviceID = some (countAt base replicas stored.version) := by
    rw [World.replicas, hStored]
    exact hInspected.2.2.2
  have hMine := hKnows i _ ((turns nodes manager).running_of_perform atOp)
  revert hPermits hMine
  generalize (turns nodes manager).phase s.log i call = turn
  intro hPermits hMine
  cases turn with
  | setting id current =>
      rcases hPermits with ⟨hReady, _⟩ | hTurn
      · cases hReady
      · rcases hTurn with hOp | hOp | ⟨spec', hOp, hSpec⟩
        · cases hOp
        · cases hOp
        · injection hOp with _ _ hSame
          rw [hSame, hSpec] at hCount
          cases hCount
          exact ⟨_, hReplicas, le_one_of_counted_one counted_countAt hCounted⟩
  | asking id seen point =>
      cases point with
      | writing current newReplicas =>
          obtain ⟨_, hNew, hSeen, _⟩ := hMine
          rcases hPermits with ⟨hReady, _⟩ | hTurn
          · cases hReady
          · rcases hTurn with hOp | hOp | ⟨spec', hOp, hSpec⟩
            · cases hOp
            · cases hOp
            · injection hOp with _ _ hSame
              rw [hSame, hSpec] at hCount
              cases hCount
              rw [hNew] at hCounted
              exact (succ_counted_iff hSeen).mp hCounted
      | _ => trivial
  | _ => trivial

/-- The step wakes the service up a second time exactly when it is not apt: the update takes
a count that another loop has already raised. -/
theorem WakeInv.wokenOnce_step_iff (hCluster : OneManager nodes manager)
    (hInv : WakeInv nodes manager serviceID replicas base s) (hAllowed : Undisturbed s action)
    (hStep : (machine nodes).step s action = some t) :
    WokenOnce nodes manager serviceID replicas t ↔ Apt nodes manager serviceID s action := by
  constructor
  · rintro ⟨count, hCount, hCounted, _⟩
    cases (machine nodes).stepCase_of_step hStep with
    | invoke | meet | disturb => trivial
    | @step i fail call op next answer world atOp answered =>
        intro thread hThread version hVersion hAccepts turn hTurn
        rw [Option.mem_def, atOp] at hThread
        cases hThread
        rw [(turns nodes manager).running_of_perform atOp] at hTurn
        cases hTurn
        obtain ⟨spec, rfl⟩ := Op.updateOf_eq_some_iff.mp (show op.updateOf serviceID = some version from hVersion)
        rcases update_of_exec answered with ⟨_, _, service, _, rfl⟩ | ⟨hNot, _⟩
        · refine hInv.apt_of_counted atOp ?_ hCounted
          simpa using hCount
        · exact absurd hAccepts hNot
  · intro hApt
    exact (hInv.step hCluster hAllowed hApt hStep).wokenOnce

/-- The start with a sleeping service and everybody listening satisfies the invariant. -/
theorem WakeInv.start {port : UInt32} (hCluster : OneManager nodes manager)
    (hListening : AllListening nodes serviceID port replicas w) :
    ∃ base, WakeInv nodes manager serviceID replicas base (Cluster.start nodes w) := by
  obtain ⟨stored, hStored, hId, hReplicas⟩ := hListening.stored
  have listener (i : Nat) (thread : Thread signature Call Result)
      (hThread : (Cluster.start nodes w).threads[i]? = some thread) :
      ∃ ip ∈ nodes.ips, thread = ⟨.listener ip, listenForEvents nodes ip⟩ := by
    obtain ⟨ip, hIp, hSame⟩ := List.mem_map.mp (List.mem_of_getElem? hThread)
    exact ⟨ip, hIp, hSame.symm⟩
  refine ⟨stored.version, Machine.logged_of_nil rfl, ?_, ?_, hListening.oneService, stored, hStored, ?_, ?_⟩
  · intro i thread hThread
    obtain ⟨ip, hIp, rfl⟩ := listener i thread hThread
    rw [Tracking.Tracked, listener_protocol hIp]
    exact follows_turn hCluster hIp rfl
  · intro i thread hThread
    obtain ⟨ip, hIp, rfl⟩ := listener i thread hThread
    exact ⟨ip, hIp, rfl⟩
  · refine ⟨hId, Nat.le_refl _, Nat.le_refl _, ?_⟩
    rw [hReplicas, countAt, if_pos rfl]
  · intro i turn hTurn
    obtain ⟨thread, hThread, hPhase⟩ := Option.bind_eq_some_iff.mp hTurn
    obtain ⟨ip, _, rfl⟩ := listener i thread hThread
    obtain rfl : turn = .waiting := (Option.some.inj hPhase).symm
    trivial

/-- Any packets at any nodes, in any order of the steps that follow: all wake-ups together
leave at least one replica and never change a count of one or more, exactly when every
update of a wake-up that Docker takes is apt. -/
theorem wokenOnce_throughout_iff {port : UInt32} {actions : List Action} (hCluster : OneManager nodes manager)
    (hListening : AllListening nodes serviceID port replicas w)
    (hUndisturbed : Meets (machine nodes).step Undisturbed (start nodes w) actions)
    (hRun : run (machine nodes).step (start nodes w) actions = some s) :
    Throughout (machine nodes).step (WokenOnce nodes manager serviceID replicas) (start nodes w) actions ↔
      Meets (machine nodes).step (Apt nodes manager serviceID) (start nodes w) actions := by
  obtain ⟨base, hInv⟩ := WakeInv.start hCluster hListening
  exact throughout_iff_meets (fun _ _ _ hInv hAllowed hApt hStep => hInv.step hCluster hAllowed hApt hStep)
    (fun _ _ _ hInv hAllowed _ hStep => hInv.wokenOnce_step_iff hCluster hAllowed hStep)
    hInv hInv.wokenOnce hUndisturbed hRun

/-- One packet at the manager. -/
def once : List Action := .disturb (.packet "manager" 80) :: List.replicate 11 (.step 0 false)

theorem wokenOnce_once :
    Throughout (machine pair).step (WokenOnce pair "manager" "web" 0) (start pair (sleeping 0)) once := by
  have hRun : run (machine pair).step (start pair (sleeping 0)) once =
      some ((run (machine pair).step (start pair (sleeping 0)) once).get (by decide)) := by simp
  exact (wokenOnce_throughout_iff oneManager_pair (allListening_sleeping 0) (by decide) hRun).mpr (by decide)

end Invariant

end Cluster
