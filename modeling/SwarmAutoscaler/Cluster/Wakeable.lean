import SwarmAutoscaler.Cluster.Deployment
import SwarmAutoscaler.Cluster.Listening

/-! A service without replicas must be wakeable: a packet to its port on any node has to
find the port in both tables of that node. The keep-alive goroutine opens the port
everywhere before it sets the replicas to 0, and a wake-up closes it everywhere before
it sets them back, so the two must not overtake each other. -/
namespace Cluster

open Docker Process

/-- In a quiet state without replicas every node listens. -/
def NeverStranded : Prop :=
  ∀ (nodes : Nodes) (manager : String) (service : Service) (port : UInt32) (count : UInt64)
    (actions : List Action) (s : State),
    OneManager nodes manager → service.endpoint.head? = some port →
    service.spec.replicas? = some count → count ≠ 0 →
    Meets (machine nodes).step (OneServiceRun nodes service.id) (start nodes (awake service)) actions →
    run (machine nodes).step (start nodes (awake service)) actions = some s →
    (∀ thread ∈ s.threads, idle thread) → (∀ ip ∈ nodes.ips, s.world.perf ip = []) →
    s.world.replicas service.id = some 0 → ∀ ip ∈ nodes.ips, Listening s.world port ip

/-- A scale-down of the service, and a packet that arrives between the first listen and
the update to 0: the wake-up on the manager runs before the update. -/
def overtaken : List Action :=
  .invoke (.request "manager" "web" "under") ::
    (List.replicate 5 (.step 2 false) ++ List.replicate 5 (.step 3 false) ++
      .disturb (.packet "manager" 80) :: (List.replicate 9 (.step 0 false) ++
        List.replicate 6 (.step 3 false)))

/-- The counterexample to the claim: with interleavings the service can sleep while a node
does not wait for its packets. -/
theorem not_neverStranded : ¬ NeverStranded := by
  intro h
  have hRun : run (machine pair).step (start pair (awake (web 1))) overtaken =
      some ((run (machine pair).step (start pair (awake (web 1))) overtaken).get (by decide)) := by simp
  have hListening := h pair "manager" (web 1) 80 1 overtaken _ oneManager_pair rfl rfl (by decide)
    (by decide) hRun (by decide) (by decide) (by decide) "manager" (by decide)
  exact absurd hListening (by decide)

section Condition

variable (nodes : Nodes) (serviceID : String) (port : UInt32)

/-- The answers that occur in such runs while the replica count stays below `2^64 - 1`. -/
def Sound (op : Op) : op.Answer → Prop :=
  match op with
  | .serviceInspect id => fun answer => ∃ service, answer = .ok service ∧
      (id = serviceID → service.endpoint.head? = some port ∧
        ∃ count, service.spec.replicas? = some count ∧ count + 1 ≠ 0)
  | .serviceUpdate _ _ _ => fun answer => answer = .ok ()
  | .portToServiceIDLoad _ _ => fun answer => ∀ id, answer = some id → id = serviceID
  | .portsMapUpdate _ _ _ => fun answer => answer = .ok ()
  | .httpPost ip endpoint => fun answer => answer = .ok () ∧ nodes.serves ip endpoint = true
  | .perfRead _ => fun answer => ∃ sample, answer = .ok sample
  | .recover => fun _ => False
  | _ => fun _ => True

/-- An update of the service. -/
def Updates (op : Op) : Prop := ∃ version spec, op = .serviceUpdate serviceID version spec

/-- The thread of an event loop that has its update of the replica count still before
it, whatever it will be answered. -/
def Waking (thread : Thread signature Call Result) : Prop :=
  (∃ ip, thread.call = .listener ip) ∧
    thread.program.Reaches (Sound nodes serviceID port) (Updates serviceID)

/-- When a keep-alive goroutine executes its update to 0 replicas, every entry it has
made on the nodes is still there, or was made again, or a wake-up has its own update
still before it. -/
def NotOvertaken (s : State) : Action → Prop
  | .step i _ => ∀ ip id ch version spec next,
      s.threads[i]? = some ⟨.keepAlive ip id ch, .perform (Op.serviceUpdate serviceID version spec) next⟩ →
        (∀ node ∈ nodes.ips, ∀ table, ¬ Undone s.log i ⟨table, node, port⟩) ∨
          ∃ thread ∈ s.threads, Waking nodes serviceID port thread
  | _ => True

/-- The count can be incremented as a `uint64`. -/
def BelowMax (s : State) (_ : Action) : Prop :=
  ∀ count ∈ s.world.replicas serviceID, count + 1 ≠ 0

end Condition

section Threads

variable {nodes : Nodes} {serviceID : String} {port : UInt32}

/-- What a scale request may do: it starts keep-alive goroutines for the service only,
and the counts it writes are not 0. -/
def RequestOp (nodes : Nodes) (serviceID : String) : Op → Prop
  | .serviceUpdate id _ spec => id = serviceID → ∃ count, spec.replicas? = some count ∧ count ≠ 0
  | .goKeepAlive ip id _ => ip ∈ nodes.ips ∧ id = serviceID
  | .portToServiceIDStore _ _ _ | .portToServiceIDDelete _ _ | .portsMapDelete _ _ => False
  | .perfRead _ => False
  | _ => True

/-- What a keep-alive goroutine may do: its only update is the one to 0. -/
def KeepAliveOp (serviceID : String) : Op → Prop
  | .serviceUpdate id _ spec => id = serviceID ∧ spec.replicas? = some 0
  | .portToServiceIDStore _ _ id => id = serviceID
  | .goKeepAlive _ _ _ | .portToServiceIDDelete _ _ | .portsMapDelete _ _ | .perfRead _ => False
  | _ => True

/-- What the removal of a port may do, on the node itself and on the others. -/
def RemovalOp : Op → Prop
  | .portToServiceIDLoad _ _ | .portToServiceIDDelete _ _ | .portsMapDelete _ _ => True
  | .httpPost _ _ => True
  | _ => False

theorem uses_scaleTo_request {replicas : UInt64} (h : replicas ≠ 0) :
    (scaleTo serviceID replicas).Uses (Sound nodes serviceID port) (RequestOp nodes serviceID) :=
  uses_scaleTo trivial trivial fun _ _ hSpec _ => ⟨replicas, hSpec, h⟩

theorem uses_constraints_request {service : Service} {add : Bool} {count : UInt64}
    (hCount : service.spec.replicas? = some count) (h : count ≠ 0) :
    (updateServiceConstraints service add).Uses (Sound nodes serviceID port) (RequestOp nodes serviceID) :=
  uses_updateServiceConstraints trivial fun _ _ hSpec _ => ⟨count, hSpec.trans hCount, h⟩

theorem uses_cancelKeepAlive {self : Instance} {replicas : UInt64} (h : replicas ≠ 0) :
    (cancelKeepAlive self serviceID replicas).Uses (Sound nodes serviceID port) (RequestOp nodes serviceID) := by
  refine ⟨trivial, fun answer _ => ?_⟩
  cases answer with
  | none => exact uses_scaleTo_request h
  | some ch => exact ⟨trivial, fun _ _ => ⟨trivial, fun _ _ => uses_scaleTo_request h⟩⟩

theorem uses_startKeepAlive {self : Instance} (hSelf : self.ip ∈ nodes.ips) :
    (startKeepAlive self serviceID).Uses (Sound nodes serviceID port) (RequestOp nodes serviceID) := by
  refine ⟨trivial, fun answer _ => ?_⟩
  cases answer with
  | true => trivial
  | false => exact ⟨trivial, fun _ _ => ⟨trivial, fun _ _ => ⟨⟨hSelf, rfl⟩, fun _ _ => trivial⟩⟩⟩

theorem uses_changeOver {self : Instance} {service : Service} {count : UInt64}
    (hCount : service.spec.replicas? = some count) (hMax : count + 1 ≠ 0) :
    (changeOver self serviceID service count).Uses (Sound nodes serviceID port) (RequestOp nodes serviceID) := by
  apply Program.uses_bind
  · split
    · next hOne => exact uses_constraints_request hCount (by simp [hOne])
    · trivial
  · intro result
    cases result with
    | error err => trivial
    | ok _ => exact uses_cancelKeepAlive hMax

theorem uses_changeUnder {self : Instance} {service : Service} {count : UInt64}
    (hSelf : self.ip ∈ nodes.ips) (hCount : service.spec.replicas? = some count) :
    (changeUnder self serviceID service count).Uses (Sound nodes serviceID port) (RequestOp nodes serviceID) := by
  unfold changeUnder
  split
  · next hAbove =>
      have hNonzero : count ≠ 0 := by
        rintro rfl
        exact absurd hAbove (by decide)
      have hNew : count - 1 ≠ 0 := by
        intro hZero
        have hOne : count = 1 := by simpa [hZero] using (UInt64.sub_add_cancel count 1).symm
        exact absurd hAbove (by simp [hOne])
      apply Program.uses_bind
      · split
        · exact uses_constraints_request hCount hNonzero
        · trivial
      · intro result
        cases result with
        | error err => trivial
        | ok _ => exact uses_scaleTo_request hNew
  · exact uses_startKeepAlive hSelf

/-- A whole request performs only operations of requests, and so no delete from a port
table. -/
theorem uses_changeServiceReplicas {self : Instance} {direction : String} (hSelf : self.ip ∈ nodes.ips) :
    (changeServiceReplicas self serviceID direction).Uses (Sound nodes serviceID port)
    (RequestOp nodes serviceID) := by
  unfold changeServiceReplicas
  split
  · trivial
  · refine ⟨trivial, ?_⟩
    rintro _ ⟨service, rfl, hService⟩
    obtain ⟨_, count, hCount, hMax⟩ := hService rfl
    simp only [hCount]
    split
    · exact uses_changeOver hCount hMax
    · split
      · exact uses_changeUnder hSelf hCount
      · trivial

theorem reaches_scaleTo {replicas : UInt64} :
    (scaleTo serviceID replicas).Reaches (Sound nodes serviceID port) (Updates serviceID) := by
  refine Or.inr ?_
  rintro _ ⟨service, rfl, _⟩
  dsimp only
  split
  · exact Or.inr fun never => nomatch never
  · exact Or.inl ⟨_, _, rfl⟩

theorem returns_updateServiceConstraints {service : Service} {add : Bool} :
    (updateServiceConstraints service add).Returns (Sound nodes serviceID port) (· = .ok ()) := by
  unfold updateServiceConstraints
  split
  · rfl
  · split
    · exact fun never => nomatch never
    · exact fun answer hAnswer => hAnswer

theorem reaches_changeOver {self : Instance} {service : Service} {count : UInt64} :
    (changeOver self serviceID service count).Reaches (Sound nodes serviceID port) (Updates serviceID) := by
  apply Program.reaches_bind (· = .ok ())
  · split
    · exact returns_updateServiceConstraints
    · rfl
  · rintro _ rfl
    refine Or.inr fun answer _ => ?_
    cases answer with
    | none => exact reaches_scaleTo
    | some ch => exact Or.inr fun _ _ => Or.inr fun _ _ => reaches_scaleTo

/-- The "over" request that a worker posts comes to its update whatever it reads, as long as
no call fails. -/
theorem reaches_sendScaleRequest {managerIP : String} :
    (sendScaleRequest (changeServiceReplicas ⟨managerIP, nodes.info managerIP⟩)
      serviceID "over" managerIP).Reaches (Sound nodes serviceID port) (Updates serviceID) := by
  refine Or.inr ?_
  rintro _ ⟨rfl, hServes⟩
  have hManager : (nodes.info managerIP).autoscalerManager = true := by
    simp only [Nodes.serves, Bool.and_eq_true, Bool.or_eq_true] at hServes
    simpa using hServes.2
  have hTrap (op handler : Op) (h : handler ∈ op.trap) :
      ¬ Updates serviceID op ∧ ∀ answer, ¬ Sound nodes serviceID port handler answer := by
    obtain ⟨rfl, rfl⟩ := Op.trap_eq_some_iff.mp h
    refine ⟨?_, fun _ => id⟩
    rintro ⟨_, _, hOp⟩
    cases hOp
  refine Program.reaches_attempt ?_ hTrap
  simp only [createScalerHandler, handle, ne_eq, not_true_eq_false, ↓reduceIte]
  apply Program.reaches_bind_left
  simp only [changeServiceReplicas, hManager, Bool.not_true, Bool.false_eq_true, ↓reduceIte]
  refine Or.inr ?_
  rintro _ ⟨service, rfl, hService⟩
  obtain ⟨_, count, hCount, _⟩ := hService rfl
  simp only [hCount]
  exact reaches_changeOver

/-- Once it has removed the port everywhere, a wake-up updates the replica count. -/
theorem reaches_scaleBackUp {ip : String} :
    (scaleBackUp nodes ip serviceID).Reaches (Sound nodes serviceID port) (Updates serviceID) := by
  unfold scaleBackUp
  split
  · exact reaches_scaleTo
  · exact reaches_sendScaleRequest

theorem uses_scaleBackUp {ip : String} :
    (scaleBackUp nodes ip serviceID).Uses (Sound nodes serviceID port) (RequestOp nodes serviceID) := by
  unfold scaleBackUp
  split
  · exact uses_scaleTo_request (by decide)
  · refine uses_post trivial id fun hAnswer => uses_changeServiceReplicas ?_
    have hServes := hAnswer.2
    simp only [Nodes.serves, Bool.and_eq_true, List.contains_iff_mem] at hServes
    exact hServes.1

/-- A delete from one of the two port tables, at any node. -/
def Deletes (op : Op) : Prop :=
  (∃ ip port, op = .portToServiceIDDelete ip port) ∨ ∃ ip port, op = .portsMapDelete ip port

/-- What a wake-up may do. -/
def WakeUpOp (nodes : Nodes) (serviceID : String) : Op → Prop
  | .serviceUpdate id _ spec => id = serviceID → ∃ count, spec.replicas? = some count ∧ count ≠ 0
  | .goKeepAlive ip id _ => ip ∈ nodes.ips ∧ id = serviceID
  | .portToServiceIDStore _ _ _ | .perfRead _ => False
  | _ => True

/-- A wake-up that is about to delete an entry still has its update before it. -/
def DeletesFirst (nodes : Nodes) (serviceID : String) (port : UInt32) (program : Code Result) : Prop :=
  ∀ op, program.head = some op → WakeUpOp nodes serviceID op ∧
    (Deletes op → program.Reaches (Sound nodes serviceID port) (Updates serviceID))

theorem wakeUpOp_of_requestOp {op : Op} (h : RequestOp nodes serviceID op) : WakeUpOp nodes serviceID op := by
  cases op <;> first | exact h | trivial

/-- No request deletes from a port table. -/
theorem not_deletes_of_requestOp {op : Op} (h : RequestOp nodes serviceID op) : ¬ Deletes op := by
  rintro (⟨ip, port, rfl⟩ | ⟨ip, port, rfl⟩) <;> exact h

theorem everywhere_scaleBackUp {ip : String} :
    (scaleBackUp nodes ip serviceID).Everywhere (Sound nodes serviceID port)
      (DeletesFirst nodes serviceID port) := by
  refine Program.everywhere_of_uses uses_scaleBackUp ?_ ?_
  · intro result op hHead
    cases hHead
  · intro op next hOp other hHead
    cases hHead
    exact ⟨wakeUpOp_of_requestOp hOp, fun hDeletes => (not_deletes_of_requestOp hOp hDeletes).elim⟩

/-- A part of the code that only removes ports, before code that comes to update. -/
theorem everywhere_removal {Value : Type} {program : Code Value} {rest : Value → Code Result}
    (hUses : program.Uses (Sound nodes serviceID port) RemovalOp)
    (hReaches : ∀ value, (rest value).Reaches (Sound nodes serviceID port) (Updates serviceID))
    (hRest : ∀ value, (rest value).Everywhere (Sound nodes serviceID port) (DeletesFirst nodes serviceID port)) :
    (program.bind rest).Everywhere (Sound nodes serviceID port) (DeletesFirst nodes serviceID port) := by
  refine Program.everywhere_bind hUses ?_ hRest
  intro op next hOp other hHead
  cases hHead
  refine ⟨?_, fun _ => Program.reaches_bind _ (Program.returns_true _) fun value _ => hReaches value⟩
  cases op <;> trivial

/-- In a turn of an event loop every delete comes before the update that wakes the service
up. -/
theorem everywhere_wakeUp {ip : String} {closed : UInt32} :
    (wakeUp nodes ip closed serviceID).Everywhere (Sound nodes serviceID port)
      (DeletesFirst nodes serviceID port) := by
  refine everywhere_removal (uses_removePort trivial trivial trivial) ?_ ?_
  · exact fun _ => Program.reaches_bind _ (Program.returns_true _) fun _ _ => reaches_scaleBackUp
  · intro _
    refine everywhere_removal ?_ (fun _ => reaches_scaleBackUp) fun _ => everywhere_scaleBackUp
    exact uses_broadcast fun ip => uses_post trivial id fun _ => uses_removePort trivial trivial trivial

/-- The code of every thread, from its start to its end, with the entries that a
keep-alive goroutine has made so far. -/
def Careful (nodes : Nodes) (serviceID : String) (port : UInt32) (log : List Event) (i : Nat) :
    Call → Code Result → Prop
  | .request _ _ _, program =>
      program.Uses (Sound nodes serviceID port) (RequestOp nodes serviceID)
  | .keepAlive _ id _, program =>
      id = serviceID ∧ program.Uses (Sound nodes serviceID port) (KeepAliveOp serviceID) ∧
        ∃ opened, (∀ entry ∈ opened, Entered log i entry) ∧
          program.Follows (opening nodes port fun _ _ => True) (Sound nodes serviceID port) opened
  | .listener ip, program => program = listenForEvents nodes ip ∨
      program.Everywhere (Sound nodes serviceID port) (DeletesFirst nodes serviceID port)

theorem careful_keepAlive {manager ip : String} {ch : Nat} (hCluster : OneManager nodes manager)
    (hIp : ip ∈ nodes.ips) (log : List Event) (i : Nat) :
    Careful nodes serviceID port log i (.keepAlive ip serviceID ch)
      (keepAliveAndScaleDown ⟨ip, nodes.info ip⟩ serviceID ch) := by
  refine ⟨rfl, ?_, [], nofun, ?_⟩
  · exact uses_keepAliveAndScaleDown trivial (uses_scaleDown trivial trivial (fun _ _ => rfl)
      (fun _ _ => trivial) (fun _ => trivial) trivial trivial (fun _ _ hSpec => ⟨rfl, hSpec⟩) trivial)
  · apply follows_keepAliveAndScaleDown
    · rintro _ ⟨service, rfl, hService⟩
      exact ⟨service, rfl, (hService rfl).1⟩
    · exact fun _ _ _ _ hAnswer => hAnswer
    · exact fun _ _ _ hAnswer => hAnswer.1
    · intro other hOther
      by_cases hSelf : other = ip
      · exact Or.inl hSelf
      · exact Or.inr (hCluster.others ip hIp other hOther hSelf)

/-- One turn of an event loop: read, load, and then a wake-up of the service. -/
theorem everywhere_afterRead {ip : String} {answer : (Op.perfRead ip).Answer} :
    ∀ next : (Op.perfRead ip).Answer → Code Result,
      listenForEvents nodes ip = .perform (Op.perfRead ip) next →
        (next answer).Everywhere (Sound nodes serviceID port) (DeletesFirst nodes serviceID port) := by
  intro next hBody
  cases hBody
  have ended (result : Result) : (Program.done result : Code Result).Everywhere
      (Sound nodes serviceID port) (DeletesFirst nodes serviceID port) := by
    intro op hHead
    cases hHead
  cases answer with
  | error err => exact ended _
  | ok rawSample =>
      dsimp only
      split
      · refine ⟨?_, fun answer hAnswer => ?_⟩
        · intro op hHead
          cases hHead
          refine ⟨trivial, ?_⟩
          rintro (⟨_, _, h⟩ | ⟨_, _, h⟩) <;> cases h
        · cases answer with
          | none => exact ended _
          | some id =>
              obtain rfl := hAnswer id rfl
              exact everywhere_wakeUp
      · exact ended _

theorem Careful.next {log : List Event} {i : Nat} {call : Call} {op : Op}
    {next : op.Answer → Code Result} {answer : op.Answer} (hAnswer : Sound nodes serviceID port op answer)
    (h : Careful nodes serviceID port log i call (.perform op next)) :
    Careful nodes serviceID port (log ++ [⟨i, op, answer, (next answer).result⟩]) i call
      ((machine nodes).settle call (next answer)) := by
  cases call with
  | request ip id direction =>
      rw [settle_request]
      exact h.2 answer hAnswer
  | keepAlive ip id ch =>
      rw [settle_keepAlive]
      obtain ⟨hId, hUses, opened, hOpened, hFollows⟩ := h
      refine ⟨hId, hUses.2 answer hAnswer, _, ?_, hFollows.2 answer hAnswer⟩
      intro entry hEntry
      rcases List.mem_append.mp hEntry with hNew | hOld
      · exact entered_append_iff.mpr (Or.inr ⟨rfl, Option.mem_toList.mp hNew⟩)
      · exact (hOpened entry hOld).append
  | listener ip =>
      have hNext : (next answer).Everywhere (Sound nodes serviceID port)
          (DeletesFirst nodes serviceID port) := by
        rcases h with hBody | hEverywhere
        · have hOp : op = Op.perfRead ip := Option.some.inj (congrArg Program.head hBody)
          subst hOp
          exact everywhere_afterRead next hBody.symm
        · exact hEverywhere.2 answer hAnswer
      revert hNext
      generalize next answer = program
      intro hNext
      cases program with
      | done result => exact Or.inl rfl
      | perform other rest => exact Or.inr hNext

theorem Careful.other {log : List Event} {i : Nat} {call : Call} {program : Code Result}
    (h : Careful nodes serviceID port log i call program) (event : Event) :
    Careful nodes serviceID port (log ++ [event]) i call program := by
  cases call with
  | request | listener => exact h
  | keepAlive =>
      obtain ⟨hId, hUses, opened, hOpened, hFollows⟩ := h
      exact ⟨hId, hUses, opened, fun entry hEntry => (hOpened entry hEntry).append, hFollows⟩

section Op

variable {log : List Event} {i : Nat} {call : Call}

theorem Careful.of_store {ip id : String} {other : UInt32} {next : Unit → Code Result}
    (h : Careful nodes serviceID port log i call (.perform (Op.portToServiceIDStore ip other id) next)) :
    id = serviceID := by
  cases call with
  | request => exact h.1.elim
  | keepAlive => exact h.2.1.1
  | listener =>
      rcases h with hBody | hEverywhere
      · cases hBody
      · exact (hEverywhere.1 _ rfl).1.elim

theorem Careful.of_fork {ip id : String} {ch : Nat} {next : Unit → Code Result}
    (h : Careful nodes serviceID port log i call (.perform (Op.goKeepAlive ip id ch) next)) :
    ip ∈ nodes.ips ∧ id = serviceID := by
  cases call with
  | request => exact h.1
  | keepAlive => exact h.2.1.1.elim
  | listener =>
      rcases h with hBody | hEverywhere
      · cases hBody
      · exact (hEverywhere.1 _ rfl).1

theorem Careful.of_deletes {op : Op} {next : op.Answer → Code Result}
    (h : Careful nodes serviceID port log i call (.perform op next)) (hDeletes : Deletes op) :
    Waking nodes serviceID port ⟨call, .perform op next⟩ := by
  cases call with
  | request => exact (not_deletes_of_requestOp h.1 hDeletes).elim
  | keepAlive =>
      have hOp := h.2.1.1
      rcases hDeletes with ⟨_, _, rfl⟩ | ⟨_, _, rfl⟩ <;> exact hOp.elim
  | listener ip =>
      rcases h with hBody | hEverywhere
      · cases hBody
        rcases hDeletes with ⟨_, _, hOp⟩ | ⟨_, _, hOp⟩ <;> cases hOp
      · exact ⟨⟨ip, rfl⟩, (hEverywhere.1 op rfl).2 hDeletes⟩

/-- Only keep-alive goroutines write 0, and they have made all entries by then. -/
theorem Careful.of_update {version : Nat} {spec : ServiceSpec} {next : Except String Unit → Code Result}
    (h : Careful nodes serviceID port log i call
      (.perform (Op.serviceUpdate serviceID version spec) next)) :
    ∃ count, spec.replicas? = some count ∧ (count = 0 → (∃ ip id ch, call = .keepAlive ip id ch) ∧
      ∀ ip ∈ nodes.ips, ∀ table, Entered log i ⟨table, ip, port⟩) := by
  cases call with
  | request =>
      obtain ⟨count, hCount, hNonzero⟩ := h.1 rfl
      exact ⟨count, hCount, fun hZero => absurd hZero hNonzero⟩
  | keepAlive ip id ch =>
      obtain ⟨_, hUses, opened, hOpened, hFollows⟩ := h
      refine ⟨0, hUses.1.2, fun _ => ⟨⟨ip, id, ch, rfl⟩, fun node hNode table => ?_⟩⟩
      exact hOpened _ (hFollows.1 _ _ _ rfl node hNode table)
  | listener =>
      rcases h with hBody | hEverywhere
      · cases hBody
      · obtain ⟨count, hCount, hNonzero⟩ := (hEverywhere.1 _ rfl).1 rfl
        exact ⟨count, hCount, fun hZero => absurd hZero hNonzero⟩

end Op

theorem not_waking_of_idle {log : List Event} {i : Nat} {thread : Thread signature Call Result}
    (hCareful : Careful nodes serviceID port log i thread.call thread.program) (hIdle : idle thread = true) :
    ¬ Waking nodes serviceID port thread := by
  obtain ⟨call, program⟩ := thread
  rintro ⟨⟨ip, rfl⟩, hReaches⟩
  obtain ⟨next, rfl⟩ : ∃ next, program = .perform (Op.perfRead ip) next := by
    apply Program.head_eq_some_iff.mp
    simp only [idle] at hIdle
    split at hIdle <;> simp_all
  rcases hCareful with hBody | hEverywhere
  · cases hBody
    exact hReaches.next (fun ⟨_, _, h⟩ => nomatch h)
      (show Sound nodes serviceID port (.perfRead ip) (.ok []) from ⟨[], rfl⟩)
  · exact (hEverywhere.1 _ rfl).1

end Threads

section Invariant

variable {nodes : Nodes} {manager serviceID : String} {port : UInt32} {s t : State} {action : Action}

/-- `watched` is the heart: without replicas, every node listens or somebody is about to
start a replica. -/
structure Inv (nodes : Nodes) (serviceID : String) (port : UInt32) (s : State) : Prop where
  logged : Machine.Logged s
  threads : Machine.EachThread (Careful nodes serviceID port) s
  accounted : Accounted s.world s.log
  stored : ∀ key id, s.world.portToServiceID key = some id → id = serviceID
  published : ∃ service, s.world.services serviceID = some service ∧
    service.endpoint.head? = some port ∧ ∃ count, service.spec.replicas? = some count
  watched : s.world.replicas serviceID = some 0 →
    (∀ ip ∈ nodes.ips, Listening s.world port ip) ∨
      ∃ thread ∈ s.threads, Waking nodes serviceID port thread

/-- What an operation answers is what the invariant says of the world. -/
theorem sound_of_exec {w w' : World} {thread : Nat} {op : Op} {fail : Bool} {answer : op.Answer}
    (hStored : ∀ key id, w.portToServiceID key = some id → id = serviceID)
    (hPublished : ∃ service, w.services serviceID = some service ∧
      service.endpoint.head? = some port ∧ ∃ count, service.spec.replicas? = some count)
    (hBelow : ∀ count ∈ w.replicas serviceID, count + 1 ≠ 0)
    (hSucceeds : Succeeds op answer) (h : exec nodes thread op fail w = some (answer, w')) :
    Sound nodes serviceID port op answer := by
  cases op with
  | serviceInspect id =>
      obtain ⟨service, rfl⟩ := ok_of_isOk hSucceeds
      refine ⟨service, rfl, ?_⟩
      rintro rfl
      obtain ⟨stored, hService, hPort, count, hCount⟩ := hPublished
      obtain rfl : stored = service := by
        cases fail with
        | true => cases h
        | false =>
            simp only [exec, perform, hService, Bool.false_eq_true, ↓reduceIte] at h
            cases h
            rfl
      exact ⟨hPort, count, hCount, hBelow count (by simpa [World.replicas, hService] using hCount)⟩
  | httpPost ip endpoint =>
      refine ⟨(ok_of_isOk hSucceeds).choose_spec, ?_⟩
      cases fail with
      | true => cases h; cases hSucceeds
      | false =>
          simp only [exec, perform, Bool.false_eq_true, ↓reduceIte] at h
          split at h
          · assumption
          · cases h
            cases hSucceeds
  | portToServiceIDLoad ip port =>
      cases fail with
      | true => cases h
      | false =>
          cases h
          exact fun id hId => hStored _ id hId
  | serviceUpdate | portsMapUpdate => exact (ok_of_isOk hSucceeds).choose_spec
  | perfRead => exact ok_of_isOk hSucceeds
  | _ => trivial

theorem Inv.answersWith (hInv : Inv nodes serviceID port s)
    (hRun : OneServiceRun nodes serviceID s action) (hBelow : BelowMax serviceID s action) :
    (machine nodes).AnswersWith (Sound nodes serviceID port) s action := by
  refine (machine nodes).answersWith_of_exec ?_
  rintro i fail call op next answer world rfl atOp answered
  exact sound_of_exec hInv.stored hInv.published hBelow
    (hRun.2 _ ((machine nodes).reply_of_exec atOp answered)) answered

/-- A wake-up stays under way until its own update. -/
theorem Waking.next {call : Call} {op : Op} {next : op.Answer → Code Result} {answer : op.Answer}
    (h : Waking nodes serviceID port ⟨call, .perform op next⟩) (hOther : ¬ Updates serviceID op)
    (hAnswer : Sound nodes serviceID port op answer) :
    Waking nodes serviceID port ⟨call, (machine nodes).settle call (next answer)⟩ := by
  have hNext := Program.Reaches.next h.2 hOther hAnswer
  refine ⟨h.1, ?_⟩
  rw [Machine.settle_of_reaches _ hNext]
  exact hNext

/-- A service that runs with its tables empty satisfies the invariant. -/
theorem Inv.start {service : Service} {count : UInt64} (hPort : service.endpoint.head? = some port)
    (hCount : service.spec.replicas? = some count) (hNonzero : count ≠ 0) :
    Inv nodes service.id port (start nodes (awake service)) := by
  have hReplicas : (awake service).replicas service.id = some count := by
    simpa [World.replicas, awake] using hCount
  refine ⟨Machine.logged_of_nil rfl, ?_, accounted_nil _, ?_,
    ⟨service, by simp [Cluster.start, awake], hPort, count, hCount⟩, ?_⟩
  · intro i thread hThread
    obtain ⟨ip, _, rfl⟩ := List.mem_map.mp (List.mem_of_getElem? hThread)
    exact Or.inl rfl
  · intro key id hKey
    cases hKey
  · intro hZero
    exact absurd (Option.some.inj (hReplicas.symm.trans hZero)) hNonzero

/-- One step keeps the code of every thread careful: the answer it gets is sound, and what
it has performed is in the log. -/
theorem Inv.threads_step (hCluster : OneManager nodes manager) (hInv : Inv nodes serviceID port s)
    (hRun : OneServiceRun nodes serviceID s action) (hBelow : BelowMax serviceID s action)
    (hStep : (machine nodes).step s action = some t) :
    Machine.EachThread (Careful nodes serviceID port) t := by
  refine (machine nodes).eachThread_step ?_ ?_ (fun _ _ _ _ _ _ => Careful.next)
    (fun _ event _ _ _ _ h => h.other event) hInv.logged (hInv.answersWith hRun hBelow) ?_ hRun.1
    hInv.threads hStep
  · intro log i call _ hCall
    cases call with
    | request ip id direction =>
        obtain ⟨hIp, rfl⟩ := hCall
        exact uses_changeServiceReplicas hIp
    | _ => exact hCall.elim
  · intro log i call op next child hCareful hFork
    cases op with
    | goKeepAlive ip id ch =>
        cases hFork
        obtain ⟨hIp, rfl⟩ := hCareful.of_fork
        exact fun log' j _ => careful_keepAlive hCluster hIp log' j
    | _ => cases hFork
  · intro send receive found hFound
    obtain ⟨ch, keepAlive, rfl, rfl⟩ := channel_of_meet hFound
    exact ⟨trivial, trivial⟩

theorem deletes_of_closes {op : Op} {answer : op.Answer} {entry : Entry}
    (h : closes op answer = some entry) : Deletes op := by
  cases op with
  | portToServiceIDDelete => exact Or.inl ⟨_, _, rfl⟩
  | portsMapDelete => exact Or.inr ⟨_, _, rfl⟩
  | _ => cases h

theorem listening_of_effect {w w' : World} {op : Op} {answer : op.Answer} {ip : String}
    (hEffect : Effect w op answer w') (hDeletes : ¬ Deletes op) (h : Listening w port ip) :
    Listening w' port ip := by
  rw [listening_iff] at h ⊢
  intro table
  rw [has_of_effect hEffect, if_neg fun hCloses => hDeletes (deletes_of_closes hCloses), h table]
  exact ite_self _

theorem updateOf_eq_none {op : Op} (h : ¬ Updates serviceID op) : op.updateOf serviceID = none := by
  rw [Option.eq_none_iff_forall_not_mem]
  intro version hVersion
  obtain ⟨spec, hOp⟩ := Op.updateOf_eq_some_iff.mp hVersion
  exact h ⟨version, spec, hOp⟩

/-- Every entry of the Go tables stays one of the service. -/
theorem Inv.stored_step (hInv : Inv nodes serviceID port s)
    (hStep : (machine nodes).step s action = some t) :
    ∀ key id, t.world.portToServiceID key = some id → id = serviceID := by
  cases (machine nodes).stepCase_of_step hStep with
  | invoke | meet => exact hInv.stored
  | @disturb env world happens =>
      obtain ⟨ip, port⟩ := env
      simp only [machine, disturb] at happens
      split at happens <;> cases happens <;> exact hInv.stored
  | @step i fail call op next answer world atOp answered =>
      intro key id hId
      simp only [Machine.resume_world] at hId
      cases effect_of_exec answered with
      | portStore ip port stored =>
          obtain rfl : stored = serviceID := (hInv.threads _ _ atOp).of_store
          by_cases hKey : key = (ip, port)
          · simpa [hKey, eq_comm] using hId
          · exact hInv.stored key id (by simpa [Function.update_of_ne hKey] using hId)
      | portDelete ip port =>
          by_cases hKey : key = (ip, port)
          · simp [hKey] at hId
          · exact hInv.stored key id (by simpa [Function.update_of_ne hKey] using hId)
      | none | update | keepAliveSet | keepAliveDelete | mapUpdate | mapDelete | read =>
          exact hInv.stored key id hId

/-- The service stays stored with its published port, as updates keep the endpoint. -/
theorem Inv.published_step (hInv : Inv nodes serviceID port s)
    (hRun : OneServiceRun nodes serviceID s action)
    (hStep : (machine nodes).step s action = some t) :
    ∃ service, t.world.services serviceID = some service ∧
      service.endpoint.head? = some port ∧ ∃ count, service.spec.replicas? = some count := by
  cases (machine nodes).stepCase_of_step hStep with
  | invoke | meet => exact hInv.published
  | @disturb env world happens =>
      obtain ⟨ip, port⟩ := env
      simp only [machine, disturb] at happens
      split at happens <;> cases happens <;> exact hInv.published
  | @step i fail call op next answer world atOp answered =>
      have hEffect := effect_of_exec answered
      by_cases hUpdates : Updates serviceID op
      · obtain ⟨version, spec, rfl⟩ := hUpdates
        obtain ⟨_, rfl⟩ := ok_of_isOk (hRun.2 _ ((machine nodes).reply_of_exec atOp answered))
        obtain ⟨count, hCount, _⟩ := (hInv.threads _ _ atOp).of_update
        obtain ⟨stored, hStored, hPort, _⟩ := hInv.published
        obtain ⟨service, hService, _, rfl⟩ := update_of_effect hEffect
        obtain rfl : service = stored := Option.some.inj (hService.symm.trans hStored)
        exact ⟨{ service with version := version + 1, spec := spec }, Function.update_self _ _ _,
          hPort, count, hCount⟩
      · simpa [services_of_effect hEffect (updateOf_eq_none hUpdates)] using hInv.published

/-- The step that matters: an update to 0 finds every node listening unless a delete was
overtaken, and a delete happens only on behalf of a thread that will wake the service up. -/
theorem Inv.watched_step (hInv : Inv nodes serviceID port s)
    (hRun : OneServiceRun nodes serviceID s action) (hBelow : BelowMax serviceID s action)
    (hNotOvertaken : NotOvertaken nodes serviceID port s action)
    (hStep : (machine nodes).step s action = some t) (hZero : t.world.replicas serviceID = some 0) :
    (∀ ip ∈ nodes.ips, Listening t.world port ip) ∨
      ∃ thread ∈ t.threads, Waking nodes serviceID port thread := by
  have hSound := hInv.answersWith hRun hBelow
  cases (machine nodes).stepCase_of_step hStep with
  | invoke call =>
      rcases hInv.watched hZero with hListening | ⟨thread, hMem, hWaking⟩
      · exact Or.inl hListening
      · exact Or.inr ⟨thread, List.mem_append_left _ hMem, hWaking⟩
  | @disturb env world happens =>
      obtain ⟨ip, port⟩ := env
      simp only [machine, disturb] at happens
      split at happens <;> cases happens <;> exact hInv.watched hZero
  | meet atSend atReceive apart met waits =>
      rcases hInv.watched hZero with hListening | hWaking
      · exact Or.inl hListening
      · obtain ⟨ch, keepAlive, rfl, rfl⟩ := channel_of_meet met
        refine Or.inr ((machine nodes).exists_resume waits (fun h => h.next ?_ trivial)
          ((machine nodes).exists_resume atSend (fun h => h.next ?_ trivial) hWaking))
        · rintro ⟨_, _, hOp⟩
          cases hOp
        · rintro ⟨_, _, hOp⟩
          cases hOp
  | @step i fail call op next answer world atOp answered =>
      have hEffect := effect_of_exec answered
      have hAnswer := hSound _ ((machine nodes).reply_of_exec atOp answered)
      by_cases hUpdates : Updates serviceID op
      · obtain ⟨version, spec, rfl⟩ := hUpdates
        obtain rfl : answer = .ok () := hAnswer
        obtain ⟨count, hSpec, hKeepAlive⟩ := (hInv.threads _ _ atOp).of_update
        obtain ⟨service, _, _, rfl⟩ := update_of_effect hEffect
        have hNew : (s.world.setService serviceID
            { service with version := version + 1, spec := spec }).replicas serviceID = some 0 := hZero
        rw [replicas_setService] at hNew
        obtain rfl : count = 0 := Option.some.inj (hSpec.symm.trans hNew)
        obtain ⟨⟨ip, id, ch, rfl⟩, hEntered⟩ := hKeepAlive rfl
        rcases hNotOvertaken _ _ _ _ _ _ atOp with hKept | hWaking
        · refine Or.inl fun node hNode => listening_iff.mpr fun table => ?_
          exact (hInv.accounted _ _ (hEntered node hNode table)).resolve_right (hKept node hNode table)
        · refine Or.inr ((machine nodes).exists_resume (s := { s with world := _ }) atOp ?_ hWaking)
          rintro ⟨⟨_, hCall⟩, _⟩
          cases hCall
      · by_cases hDeletes : Deletes op
        · have hWaking : ∃ thread ∈ s.threads, Waking nodes serviceID port thread :=
            ⟨_, List.mem_of_getElem? atOp, (hInv.threads _ _ atOp).of_deletes hDeletes⟩
          exact Or.inr ((machine nodes).exists_resume (s := { s with world := world }) atOp
            (fun h => h.next hUpdates hAnswer) hWaking)
        · have hBefore : s.world.replicas serviceID = some 0 := by
            simpa [World.replicas, services_of_effect hEffect (updateOf_eq_none hUpdates)] using hZero
          rcases hInv.watched hBefore with hListening | hWaking
          · exact Or.inl fun node hNode =>
              listening_of_effect hEffect hDeletes (hListening node hNode)
          · exact Or.inr ((machine nodes).exists_resume (s := { s with world := world }) atOp
              (fun h => h.next hUpdates hAnswer) hWaking)

/-- One step of a run that satisfies the condition keeps the whole invariant. -/
theorem Inv.step (hCluster : OneManager nodes manager) (hInv : Inv nodes serviceID port s)
    (hRun : OneServiceRun nodes serviceID s action) (hBelow : BelowMax serviceID s action)
    (hNotOvertaken : NotOvertaken nodes serviceID port s action)
    (hStep : (machine nodes).step s action = some t) : Inv nodes serviceID port t where
  logged := (machine nodes).logged_step hInv.logged hStep
  threads := hInv.threads_step hCluster hRun hBelow hStep
  accounted := accounted_step hInv.accounted hStep
  stored := hInv.stored_step hStep
  published := hInv.published_step hRun hStep
  watched := hInv.watched_step hRun hBelow hNotOvertaken hStep

end Invariant

instance (serviceID : String) (s : State) (action : Action) : Decidable (BelowMax serviceID s action) :=
  inferInstanceAs (Decidable (∀ count ∈ s.world.replicas serviceID, count + 1 ≠ 0))

theorem notOvertaken_of_closes {nodes : Nodes} {serviceID : String} {port : UInt32} {s : State}
    {action : Action} (h : ∀ event ∈ s.log, closes event.op event.answer = none) :
    NotOvertaken nodes serviceID port s action := by
  cases action with
  | step i fail =>
      intro ip id ch version spec next _
      refine Or.inl fun node _ table => ?_
      rintro ⟨before, removal, after, hLog, _, hCloses, _⟩
      have hNone := h removal (by simp [hLog])
      rw [hNone] at hCloses
      cases hCloses
  | _ => trivial

/-- In a run in which no scale-down is overtaken by a wake-up, no quiet state leaves the
service without replicas and some node deaf for its port. -/
theorem listening_of_notOvertaken {nodes : Nodes} {manager : String} {service : Service}
    {port : UInt32} {count : UInt64} {actions : List Action} {s : State}
    (hCluster : OneManager nodes manager) (hPort : service.endpoint.head? = some port)
    (hCount : service.spec.replicas? = some count) (hNonzero : count ≠ 0)
    (hMeets : Meets (machine nodes).step (fun s action => OneServiceRun nodes service.id s action ∧
      NotOvertaken nodes service.id port s action ∧ BelowMax service.id s action)
        (start nodes (awake service)) actions)
    (hRun : run (machine nodes).step (start nodes (awake service)) actions = some s)
    (hIdle : ∀ thread ∈ s.threads, idle thread = true)
    (hZero : s.world.replicas service.id = some 0) :
    ∀ ip ∈ nodes.ips, Listening s.world port ip := by
  have hInv : Inv nodes service.id port s :=
    invariant_run (fun _ _ _ hInv hGuard hStep => hInv.step hCluster hGuard.1 hGuard.2.2 hGuard.2.1 hStep)
      (Inv.start hPort hCount hNonzero) hMeets hRun
  rcases hInv.watched hZero with hListening | ⟨thread, hMem, hWaking⟩
  · exact hListening
  · obtain ⟨i, hi⟩ := List.mem_iff_getElem?.mp hMem
    exact absurd hWaking (not_waking_of_idle (hInv.threads i thread hi) (hIdle thread hMem))

/-- A scale-down that no packet disturbs. -/
def asleep : List Action :=
  .invoke (.request "manager" "web" "under") ::
    (List.replicate 5 (.step 2 false) ++ List.replicate 11 (.step 3 false))

theorem listening_asleep : ∃ s, run (machine pair).step (start pair (awake (web 1))) asleep = some s ∧
    s.world.replicas "web" = some 0 ∧ ∀ ip ∈ pair.ips, Listening s.world 80 ip := by
  have hRun : run (machine pair).step (start pair (awake (web 1))) asleep =
      some ((run (machine pair).step (start pair (awake (web 1))) asleep).get (by decide)) := by simp
  have hMeets : Meets (machine pair).step (fun s action => OneServiceRun pair "web" s action ∧
      (∀ event ∈ s.log, closes event.op event.answer = none) ∧ BelowMax "web" s action)
        (start pair (awake (web 1))) asleep := by decide +kernel
  refine ⟨_, hRun, by decide, listening_of_notOvertaken oneManager_pair
    (show (web 1).endpoint.head? = some 80 from rfl) rfl (by decide)
    (hMeets.mono fun s action hGuard => ?_) hRun (by decide) (by decide)⟩
  exact ⟨hGuard.1, notOvertaken_of_closes hGuard.2.1, hGuard.2.2⟩

end Cluster
