import SwarmAutoscaler.Cluster.Deployment
import SwarmAutoscaler.Process.Ledger

/-! How much the cluster can come to do. Every request, packet and failing read pays for a
fixed number of operations, and nothing else is done. -/
namespace Cluster

open Docker Process

/-- The most operations of a keep-alive goroutine on a node with so many other nodes. -/
def keepAliveWork (peers : Nat) : Nat := 8 + 3 * peers

/-- The same for a scale request, with those of the goroutine that it may start. -/
def requestWork (peers : Nat) : Nat := 4 + (1 + keepAliveWork peers)

/-- The same for one turn of the event loop. -/
def turnWork (peers : Nat) : Nat := 13 + 4 * peers

/-- One operation, and where it starts a goroutine all that this one does. -/
def work (peers : Nat) : Op → Nat
  | .goKeepAlive _ _ _ => 1 + keepAliveWork peers
  | _ => 1

section Code

variable {peers : Nat} {serviceID ip direction : String} {port : UInt32} {self : Instance} {nodes : Nodes}

/-- Every operation has a price, so that what is paid bounds how many operations there
are. -/
theorem one_le_work (op : Op) : 1 ≤ work peers op := by
  cases op <;> simp [work]

/-- The panic itself is the last thing to pay for. -/
theorem costs_nilDereference {Value : Type} : (nilDereference : Code Value).Costs (work peers) 1 :=
  ⟨0, Nat.le_refl 1, fun never => nomatch never⟩

/-- An inspect and an update. -/
theorem costs_scaleTo {replicas : UInt64} : (scaleTo serviceID replicas).Costs (work peers) 2 := by
  refine ⟨1, Nat.le_refl 2, fun answer => ?_⟩
  cases answer with
  | error err => trivial
  | ok service =>
      dsimp only
      split
      · exact costs_nilDereference
      · refine ⟨0, Nat.le_refl 1, fun answer => ?_⟩
        cases answer <;> trivial

/-- One update, or none without the label. -/
theorem costs_updateServiceConstraints {service : Service} {add : Bool} :
    (updateServiceConstraints service add).Costs (work peers) 1 := by
  unfold updateServiceConstraints
  split
  · trivial
  · split
    · exact costs_nilDereference
    · exact ⟨0, Nat.le_refl 1, fun _ => trivial⟩

/-- A lookup, the send that is priced like the goroutine it ends, the delete, and
`scaleTo`. -/
theorem costs_cancelKeepAlive {replicas : UInt64} :
    (cancelKeepAlive self serviceID replicas).Costs (work peers) 5 := by
  refine ⟨4, Nat.le_refl 5, fun found => ?_⟩
  cases found with
  | none => exact costs_scaleTo.mono (by decide)
  | some ch => exact ⟨3, Nat.le_refl 4, fun _ => ⟨2, Nat.le_refl 3, fun _ => costs_scaleTo⟩⟩

/-- The lookup, the new channel and its entry, and with the start of the goroutine all that
the goroutine may do. -/
theorem costs_startKeepAlive :
    (startKeepAlive self serviceID).Costs (work peers) (3 + (1 + keepAliveWork peers)) := by
  refine ⟨2 + (1 + keepAliveWork peers), by simp only [work]; omega, fun found => ?_⟩
  cases found with
  | true => trivial
  | false =>
      refine ⟨1 + (1 + keepAliveWork peers), by simp only [work]; omega, fun ch => ?_⟩
      refine ⟨1 + keepAliveWork peers, by simp only [work]; omega, fun _ => ?_⟩
      exact ⟨0, by simp only [work]; omega, fun _ => trivial⟩

theorem costs_constrain {p : Prop} [Decidable p] {service : Service} {add : Bool} :
    (if p then updateServiceConstraints service add else .done (.ok ()) : Code Result).Costs (work peers) 1 := by
  split
  · exact costs_updateServiceConstraints
  · trivial

/-- An "over" request past its inspect: the constraints, then the cancellation and the
count. -/
theorem costs_changeOver {service : Service} {replicas : UInt64} :
    (changeOver self serviceID service replicas).Costs (work peers) 6 := by
  refine Program.costs_bind 1 5 (by decide) costs_constrain fun result => ?_
  cases result with
  | error err => trivial
  | ok _ => exact costs_cancelKeepAlive

/-- An "under" request past its inspect; the branch that starts a keep-alive is the
dearest. -/
theorem costs_changeUnder {service : Service} {replicas : UInt64} :
    (changeUnder self serviceID service replicas).Costs (work peers) (3 + (1 + keepAliveWork peers)) := by
  unfold changeUnder
  split
  · refine Program.costs_bind 1 2 (by omega) costs_constrain fun result => ?_
    cases result with
    | error err => trivial
    | ok _ => exact costs_scaleTo
  · exact costs_startKeepAlive

/-- A whole request, of either direction or of one that is neither. -/
theorem costs_changeServiceReplicas :
    (changeServiceReplicas self serviceID direction).Costs (work peers) (requestWork peers) := by
  unfold changeServiceReplicas
  split
  · trivial
  · refine ⟨3 + (1 + keepAliveWork peers), by simp only [work, requestWork]; omega, fun answer => ?_⟩
    cases answer with
    | error err => trivial
    | ok service =>
        dsimp only
        split
        · trivial
        · split
          · exact costs_changeOver.mono (by simp only [keepAliveWork]; omega)
          · split
            · exact costs_changeUnder
            · trivial

/-- An "over" request starts nothing. -/
theorem costs_changeServiceReplicas_over :
    (changeServiceReplicas self serviceID "over").Costs (work peers) 7 := by
  unfold changeServiceReplicas
  split
  · trivial
  · refine ⟨6, Nat.le_refl 7, fun answer => ?_⟩
    cases answer with
    | error err => trivial
    | ok service =>
        dsimp only
        split
        · trivial
        · exact costs_changeOver

theorem costs_getPublishedPort : (getPublishedPort serviceID).Costs (work peers) 1 := by
  refine ⟨0, Nat.le_refl 1, fun answer => ?_⟩
  cases answer with
  | error err => trivial
  | ok service =>
      dsimp only
      split <;> trivial

theorem costs_listenOnPort : (listenOnPort ip port serviceID).Costs (work peers) 2 := by
  refine ⟨1, Nat.le_refl 2, fun _ => ⟨0, Nat.le_refl 1, fun answer => ?_⟩⟩
  cases answer <;> trivial

theorem costs_removePort : (removePort ip port).Costs (work peers) 3 := by
  refine ⟨2, Nat.le_refl 3, fun found => ?_⟩
  cases found with
  | none => trivial
  | some id =>
      refine ⟨1, Nat.le_refl 2, fun _ => ⟨0, Nat.le_refl 1, fun answer => ?_⟩⟩
      cases answer <;> trivial

/-- A request costs its delivery and what the handler does. -/
theorem costs_post {Data : Type} {context success : String} {endpoint : Endpoint}
    {action : Data → Code Result} {data : Data} {credit : Nat}
    (hAction : (action data).Costs (work peers) credit) :
    (post context ip endpoint (handle success action) data).Costs (work peers) (1 + credit) := by
  refine ⟨credit, Nat.le_refl _, fun answer => ?_⟩
  cases answer with
  | error err => trivial
  | ok _ =>
      refine Program.costs_bind credit 0 (Nat.le_refl _) (Program.costs_attempt ?_ fun op handler hTrap => ?_)
        fun response => ?_
      · simp only [handle, ne_eq, not_true_eq_false, ↓reduceIte]
        refine Program.costs_bind credit 0 (Nat.le_refl _) hAction fun result => ?_
        cases result <;> trivial
      · obtain ⟨rfl, rfl⟩ := Op.trap_eq_some_iff.mp hTrap
        exact Nat.le_refl 1
      · cases response <;> trivial

/-- One request for each peer, so the price of a request times the number of peers. -/
theorem costs_broadcast {context : String} {send : String → Code Result} {others : List SwarmNode} {credit : Nat}
    (hSend : ∀ ip, (send ip).Costs (work peers) credit) (hPeers : others.length ≤ peers) :
    (broadcast context send others).Costs (work peers) (credit * peers) := by
  refine Program.Costs.mono ?_ (Nat.mul_le_mul_left credit hPeers)
  clear hPeers
  induction others with
  | nil => trivial
  | cons node rest ih =>
      refine Program.costs_bind credit (credit * rest.length) (by rw [List.length_cons, Nat.mul_succ]; omega)
        (hSend node.ip) fun result => ?_
      cases result with
      | error err => trivial
      | ok _ => exact ih

/-- The end of a timer: its own entries, a listen request for each peer, and the update to
0. -/
theorem costs_scaleDown (hPeers : self.nodeInfo.otherNodes.length ≤ peers) :
    (scaleDown self serviceID).Costs (work peers) (7 + 3 * peers) := by
  refine ⟨6 + 3 * peers, by simp only [work]; omega, fun found => ?_⟩
  cases found with
  | false => trivial
  | true =>
      refine Program.costs_bind 1 (5 + 3 * peers) (by omega) costs_getPublishedPort fun result => ?_
      cases result with
      | error err => trivial
      | ok port =>
          refine Program.costs_bind 2 (3 + 3 * peers) (by omega) costs_listenOnPort fun result => ?_
          cases result with
          | error err => trivial
          | ok _ =>
              refine Program.costs_bind (3 * peers) 3 (by omega)
                (costs_broadcast (fun ip => costs_post costs_listenOnPort) hPeers) fun result => ?_
              cases result with
              | error err => trivial
              | ok _ =>
                  refine Program.costs_bind 2 1 (Nat.le_refl 3) costs_scaleTo fun result => ?_
                  cases result with
                  | error err => trivial
                  | ok _ => exact ⟨0, Nat.le_refl 1, fun _ => trivial⟩

/-- The wait, and then either nothing or the end of the timer. -/
theorem costs_keepAliveAndScaleDown {ch : Nat} (hPeers : self.nodeInfo.otherNodes.length ≤ peers) :
    (keepAliveAndScaleDown self serviceID ch).Costs (work peers) (keepAliveWork peers) := by
  refine ⟨7 + 3 * peers, by simp only [work, keepAliveWork]; omega, fun ready => ?_⟩
  cases ready with
  | received => trivial
  | timer => exact costs_scaleDown hPeers

/-- A wake-up on the manager or by way of it; the request that a worker posts is priced as
the manager's "over". -/
theorem costs_scaleBackUp : (scaleBackUp nodes ip serviceID).Costs (work peers) 8 := by
  unfold scaleBackUp
  split
  · exact costs_scaleTo.mono (by decide)
  · exact costs_post costs_changeServiceReplicas_over

/-- The rest of a turn once the service of the packet is known: the scaling, and the removal
of the port on this node and on each peer. -/
theorem costs_wakeUp (hPeers : (nodes.info ip).otherNodes.length ≤ peers) :
    (wakeUp nodes ip port serviceID).Costs (work peers) (11 + 4 * peers) := by
  refine Program.costs_bind 3 (8 + 4 * peers) (by omega) costs_removePort fun _ => ?_
  refine Program.costs_bind (4 * peers) 8 (by omega)
    (costs_broadcast (fun ip => costs_post costs_removePort) hPeers) fun _ => ?_
  exact costs_scaleBackUp

/-- What follows the read of an event. -/
theorem costs_turn (hPeers : (nodes.info ip).otherNodes.length ≤ peers) {op : Op}
    {next : signature.Answer op → Code Result} (hTurn : listenForEvents nodes ip = .perform op next)
    (answer : signature.Answer op) : (next answer).Costs (work peers) (12 + 4 * peers) := by
  cases hTurn
  cases answer with
  | error err => trivial
  | ok rawSample =>
      dsimp only
      split
      · refine ⟨11 + 4 * peers, by simp only [work]; omega, fun found => ?_⟩
        cases found with
        | none => trivial
        | some id => exact costs_wakeUp hPeers
      · trivial

end Code

/-- The thread has credit for the rest of its code. An event loop that waits has nothing to pay. -/
def Paid (nodes : Nodes) (peers credit : Nat) (thread : Thread signature Call Result) : Prop :=
  thread.program.Costs (work peers) credit ∨
    ∃ ip, thread.call = .listener ip ∧ thread.program = listenForEvents nodes ip

/-- What an action of a run pays for: a call, an event, an operation that fails. -/
def charge (peers : Nat) : Action → Nat
  | .invoke (.request _ _ _) => requestWork peers
  | .invoke (.keepAlive _ _ _) => keepAliveWork peers
  | .invoke (.listener _) => 0
  | .step _ fail => if fail then turnWork peers else 0
  | .meet _ _ => 0
  | .disturb _ => turnWork peers

/-- What the read of an event brings. -/
def income (peers : Nat) : Op → Nat
  | .perfRead _ => turnWork peers
  | _ => 0

/-- The nodes whose events wait to be read, each as often as it has events. -/
def Queues (queued : List String) (w : World) : Prop := ∀ ip, (w.perf ip).length = queued.count ip

/-- A sample that is read leaves one address fewer in the list of what waits. -/
theorem Queues.taken {queued : List String} {w w' : World} (h : Queues queued w) {ip : String}
    {sample : List UInt8} {rest : List (List UInt8)} (hQueue : w.perf ip = sample :: rest)
    (hPerf : w'.perf = Function.update w.perf ip rest) :
    Queues (queued.erase ip) w' ∧ (queued.erase ip).length + 1 = queued.length := by
  have hCount := h ip
  rw [hQueue, List.length_cons] at hCount
  refine ⟨fun other => ?_, List.length_erase_add_one (List.count_pos_iff.mp (by omega))⟩
  rw [hPerf]
  by_cases hSame : other = ip
  · subst hSame
    rw [Function.update_self, List.count_erase_self]
    omega
  · rw [Function.update_of_ne hSame, List.count_erase_of_ne hSame]
    exact h other

/-- A packet that is let through adds the address of its node to the list of what waits. -/
theorem Queues.put {queued : List String} {w : World} (h : Queues queued w) (ip : String) (sample : List UInt8) :
    Queues (ip :: queued) (w.setPerf ip (w.perf ip ++ [sample])) := by
  intro other
  rw [World.setPerf, List.count_cons]
  by_cases hSame : other = ip
  · subst hSame
    simp [h other]
  · simp [Function.update_of_ne hSame, h other, Ne.symm hSame]

/-- What a read event brings. -/
def gain (op : Op) : op.Answer → Nat :=
  match op with
  | .perfRead _ => fun
      | .error _ => 0
      | .ok _ => 1
  | _ => fun _ => 0

/-- A read takes the first sample, unless it fails; nothing else touches the buffers. -/
theorem perf_of_exec {nodes : Nodes} {i : Nat} {op : Op} {answer : op.Answer} {fail : Bool} {w w' : World}
    (h : exec nodes i op fail w = some (answer, w')) :
    w'.perf = w.perf ∧ gain op answer = 0 ∧ ((∀ ip, op ≠ .perfRead ip) ∨ fail = true) ∨
      ∃ ip sample rest, op = .perfRead ip ∧ w.perf ip = sample :: rest ∧
        w'.perf = Function.update w.perf ip rest ∧ gain op answer = 1 := by
  cases op with
  | perfRead ip =>
      cases fail with
      | true =>
          cases h
          exact Or.inl ⟨rfl, rfl, Or.inr rfl⟩
      | false =>
          simp only [exec, perform, Bool.false_eq_true, ↓reduceIte] at h
          split at h
          · cases h
          · next sample rest hQueue =>
              cases h
              exact Or.inr ⟨ip, sample, rest, rfl, hQueue, rfl, rfl⟩
  | _ =>
      refine Or.inl ⟨?_, rfl, Or.inl fun ip hRead => ?_⟩
      · cases effect_of_exec h <;> rfl
      · cases hRead

/-- All that was done, all that the threads can still do and the events that wait are paid. -/
def Solvent (nodes : Nodes) (peers paid : Nat) (s : State) : Prop :=
  ∃ total queued, Machine.Funded (Paid nodes peers) s total ∧ Queues queued s.world ∧
    s.log.length + total + turnWork peers * queued.length ≤ paid

section Solvent

variable {nodes : Nodes} {peers paid i : Nat} {s t : State} {action : Action} {world : World} {call : Call}
  {op : Op} {next : op.Answer → Code Result} {answer : op.Answer}
  (hPeers : ∀ ip, (nodes.info ip).otherNodes.length ≤ peers)

include hPeers

/-- An invocation pays for all that its call can do. -/
theorem paid_spawn : Paid nodes peers (charge peers (.invoke call)) ((machine nodes).spawn call) := by
  cases call with
  | request => exact Or.inl costs_changeServiceReplicas
  | keepAlive ip => exact Or.inl (costs_keepAliveAndScaleDown (hPeers ip))
  | listener ip => exact Or.inr ⟨ip, rfl, rfl⟩

/-- The goroutine that the operation starts is paid by the operation. -/
theorem paid_child (op : Op) :
    ∀ child ∈ (machine nodes).forks op, Paid nodes peers (work peers op - 1) ((machine nodes).spawn child) := by
  intro child hChild
  cases op with
  | goKeepAlive ip serviceID ch =>
      cases hChild
      have hWork : work peers (.goKeepAlive ip serviceID ch) - 1 = keepAliveWork peers := by simp [work]
      rw [hWork]
      exact Or.inl (costs_keepAliveAndScaleDown (hPeers ip))
  | _ => cases hChild

omit hPeers in
/-- A turn that ends leaves the event loop waiting. -/
theorem paid_settle {program : Code Result} {credit : Nat} (h : program.Costs (work peers) credit) :
    Paid nodes peers credit ⟨call, (machine nodes).settle call program⟩ := by
  cases program with
  | perform other rest => exact Or.inl h
  | done result =>
      cases call with
      | listener ip => exact Or.inr ⟨ip, rfl, rfl⟩
      | request | keepAlive => exact Or.inl trivial

/-- The thread pays for the operation that it performs. -/
theorem pays_operation (answer : op.Answer) (credit : Nat) (h : Paid nodes peers credit ⟨call, .perform op next⟩) :
    ∃ rest share, Paid nodes peers rest ⟨call, (machine nodes).settle call (next answer)⟩ ∧
      (∀ child ∈ (machine nodes).forks op, Paid nodes peers share ((machine nodes).spawn child)) ∧
        rest + share + 1 ≤ credit + income peers op := by
  have hOne := @one_le_work peers op
  rcases h with ⟨rest, hPays, hNext⟩ | ⟨ip, hCall, hTurn⟩
  · exact ⟨rest, work peers op - 1, paid_settle (hNext answer), paid_child hPeers op, by omega⟩
  · obtain rfl : op = .perfRead ip := by
      have hHead := congrArg Program.head hTurn
      exact Option.some.inj hHead
    refine ⟨12 + 4 * peers, 0, paid_settle (costs_turn (hPeers ip) hTurn.symm answer), ?_, ?_⟩
    · exact fun child hChild => absurd hChild nofun
    · simp only [income, turnWork]
      omega

omit hPeers in
/-- Who has paid more is solvent as well. -/
theorem Solvent.mono {more : Nat} (h : Solvent nodes peers paid s) (hMore : paid ≤ more) :
    Solvent nodes peers more s := by
  obtain ⟨total, queued, hFunded, hQueued, hPaid⟩ := h
  exact ⟨total, queued, hFunded, hQueued, Nat.le_trans hPaid hMore⟩

omit hPeers in
/-- Of the world only the buffers matter. -/
theorem Solvent.setWorld (h : Solvent nodes peers paid s) (hPerf : world.perf = s.world.perf) :
    Solvent nodes peers paid { s with world := world } := by
  obtain ⟨total, queued, hFunded, hQueued, hPaid⟩ := h
  exact ⟨total, queued, hFunded, fun ip => hPerf ▸ hQueued ip, hPaid⟩

omit hPeers in
/-- An event that waited has paid for its turn. -/
theorem Solvent.taken (h : Solvent nodes peers paid s) {ip : String} {sample : List UInt8}
    {rest : List (List UInt8)} (hQueue : s.world.perf ip = sample :: rest)
    (hPerf : world.perf = Function.update s.world.perf ip rest) :
    ∃ left, Solvent nodes peers left { s with world := world } ∧ left + turnWork peers ≤ paid := by
  obtain ⟨total, queued, hFunded, hQueued, hPaid⟩ := h
  obtain ⟨hTaken, hLength⟩ := hQueued.taken hQueue hPerf
  rw [← hLength, Nat.mul_succ] at hPaid
  exact ⟨_, ⟨total, queued.erase ip, hFunded, hTaken, Nat.le_refl _⟩, by dsimp only; omega⟩

/-- One thread performs one operation; the log grows, and its credit pays. -/
theorem Solvent.resume (h : Solvent nodes peers paid s) (atOp : s.threads[i]? = some ⟨call, .perform op next⟩) :
    Solvent nodes peers (paid + income peers op) ((machine nodes).resume s i call op next answer) := by
  obtain ⟨total, queued, hFunded, hQueued, hPaid⟩ := h
  obtain ⟨left, hLeft, hSum⟩ := hFunded.resume atOp (fun _ _ => id) (pays_operation hPeers answer)
  refine ⟨left, queued, hLeft, hQueued, ?_⟩
  rw [Machine.resume_log, List.length_append, List.length_singleton]
  omega

/-- One step of the cluster: an operation is paid from the credit of its thread, and what
the environment adds is paid by the action itself. This is the step that the bound on runs
is summed from. -/
theorem solvent_step (h : Solvent nodes peers paid s) (hStep : (machine nodes).step s action = some t) :
    Solvent nodes peers (paid + charge peers action) t := by
  cases (machine nodes).stepCase_of_step hStep with
  | invoke call =>
      obtain ⟨total, queued, hFunded, hQueued, hPaid⟩ := h
      exact ⟨_, queued, hFunded.invoke (paid_spawn hPeers), hQueued, by dsimp only; omega⟩
  | @step i fail call op next answer world atOp answered =>
      rcases perf_of_exec answered with ⟨hPerf, _, hIncome⟩ | ⟨ip, sample, rest, rfl, hQueue, hPerf, _⟩
      · refine ((h.setWorld hPerf).resume hPeers atOp).mono ?_
        refine Nat.add_le_add_left ?_ paid
        cases op with
        | perfRead ip =>
            have hFail := hIncome.resolve_left fun hOther => hOther ip rfl
            exact Nat.le_of_eq (if_pos hFail).symm
        | _ => exact Nat.zero_le _
      · obtain ⟨left, hLeft, hSum⟩ := h.taken hQueue hPerf
        exact (hLeft.resume hPeers atOp).mono (by simp only [income]; omega)
  | @meet i j sender receiver send receive sent received answers atSend atReceive apart met waits =>
      obtain ⟨ch, keepAlive, rfl, rfl⟩ := channel_of_meet met
      exact (h.resume hPeers atSend).resume hPeers waits
  | @disturb env world happens =>
      obtain ⟨ip, port⟩ := env
      simp only [machine, disturb] at happens
      split at happens
      · cases happens
        exact h.mono (Nat.le_add_right ..)
      · cases happens
        obtain ⟨total, queued, hFunded, hQueued, hPaid⟩ := h
        refine ⟨total, ip :: queued, hFunded, hQueued.put ip _, ?_⟩
        rw [List.length_cons, Nat.mul_succ, charge]
        dsimp only
        omega

end Solvent

variable {nodes : Nodes} {peers : Nat} {w : World} {actions rest : List Action} {s : State}

/-- Everything that is ever done is paid for by a call, a packet or a failure. -/
theorem length_log_le (hPeers : ∀ ip, (nodes.info ip).otherNodes.length ≤ peers) (hEmpty : ∀ ip, w.perf ip = [])
    (hRun : run (machine nodes).step (start nodes w) actions = some s) :
    s.log.length ≤ (actions.map (charge peers)).sum := by
  have hStart : Solvent nodes peers (([] : List Action).map (charge peers)).sum (start nodes w) := by
    refine ⟨0, [], Machine.funded_of_forall fun thread hThread => ?_, fun ip => ?_, Nat.le_refl 0⟩
    · obtain ⟨ip, _, rfl⟩ := List.mem_map.mp hThread
      exact Or.inr ⟨ip, rfl, rfl⟩
    · rw [start, hEmpty ip]
      rfl
  have hKeep (past : List Action) (s : State) (action : Action) (t : State)
      (h : Solvent nodes peers (past.map (charge peers)).sum s) (hStep : (machine nodes).step s action = some t) :
      Solvent nodes peers ((past ++ [action]).map (charge peers)).sum t := by
    rw [List.map_append, List.sum_append, List.map_singleton, List.sum_singleton]
    exact solvent_step hPeers h hStep
  have hFinish := history_run hKeep hStart hRun
  obtain ⟨total, queued, _, _, hPaid⟩ := hFinish
  rw [List.nil_append] at hPaid
  omega

/-- Nothing new arrives and nothing fails: threads go on, goroutines meet. -/
def Inward : Action → Prop
  | .step _ fail => fail = false
  | .meet _ _ => True
  | .invoke _ | .disturb _ => False

/-- Every action of the program alone adds at least one operation to the log. -/
theorem length_log_of_inward {s t : State} (hInward : ∀ action ∈ rest, Inward action)
    (hRun : run (machine nodes).step s rest = some t) : s.log.length + rest.length ≤ t.log.length := by
  induction rest generalizing s with
  | nil =>
      cases hRun
      exact Nat.le_refl _
  | cons action rest ih =>
      obtain ⟨next, hStep, hRest⟩ := run_cons.mp hRun
      have hLater := ih (fun other hMem => hInward other (List.mem_cons_of_mem _ hMem)) hRest
      have hGrows : s.log.length + 1 ≤ next.log.length := by
        cases (machine nodes).stepCase_of_step hStep with
        | step => simp
        | meet => simp
        | invoke => exact absurd (hInward _ (List.mem_cons_self ..)) id
        | disturb => exact absurd (hInward _ (List.mem_cons_self ..)) id
      rw [List.length_cons]
      omega

/-- When nothing new arrives and nothing fails, the cluster comes to rest: what has arrived
so far bounds how much it can still do. -/
theorem length_le_of_inward (hPeers : ∀ ip, (nodes.info ip).otherNodes.length ≤ peers)
    (hEmpty : ∀ ip, w.perf ip = []) (hInward : ∀ action ∈ rest, Inward action)
    (hRun : run (machine nodes).step (start nodes w) (actions ++ rest) = some s) :
    rest.length ≤ (actions.map (charge peers)).sum := by
  have hLog := length_log_le hPeers hEmpty hRun
  have hFree : (rest.map (charge peers)).sum = 0 := by
    refine List.sum_eq_zero_iff_forall_eq_nat.mpr fun cost hCost => ?_
    obtain ⟨action, hMem, rfl⟩ := List.mem_map.mp hCost
    have hIn := hInward action hMem
    cases action with
    | step i fail => exact if_neg (by rw [hIn]; decide)
    | meet => rfl
    | invoke | disturb => exact hIn.elim
  rw [List.map_append, List.sum_append, hFree] at hLog
  obtain ⟨middle, _, hRest⟩ := run_append_iff.mp hRun
  have hGrows := length_log_of_inward hInward hRest
  omega

/-- An "under" request, and the goroutine that it starts. -/
def bedtime : List Action := List.replicate 5 (.step 2 false) ++ List.replicate 11 (.step 3 false)

/-- On two nodes the bound is reached. -/
theorem length_le_of_inward_bedtime :
    bedtime.length = 16 ∧ bedtime.length ≤ ([.invoke (.request "manager" "web" "under")].map (charge 1)).sum ∧
      ([.invoke (.request "manager" "web" "under")].map (charge 1)).sum = 16 := by
  have hRun : run (machine pair).step (start pair (awake (web 1)))
      ([.invoke (.request "manager" "web" "under")] ++ bedtime) = some _ := rfl
  have hPeers (ip : String) : (pair.info ip).otherNodes.length ≤ 1 := by
    simp only [pair]
    split <;> exact Nat.le_refl 1
  have hInward : ∀ action ∈ bedtime, Inward action := by
    intro action hMem
    rcases List.mem_append.mp hMem with hFirst | hSecond
    · rw [List.eq_of_mem_replicate hFirst]
      rfl
    · rw [List.eq_of_mem_replicate hSecond]
      rfl
  exact ⟨rfl, length_le_of_inward hPeers (fun _ => rfl) hInward hRun, rfl⟩

end Cluster
