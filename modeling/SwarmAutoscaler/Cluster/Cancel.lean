import SwarmAutoscaler.Cluster.Deployment
import SwarmAutoscaler.Cluster.Footprint

/-! Cancelling a keep-alive is a send on an unbuffered channel that only the goroutine's
`select` receives. The entry in the keep-alive table outlives that `select`, and two
calls may find the same entry; a call is stuck exactly when one of these happens. -/
namespace Cluster

open Docker Process

section Threads

/-- The thread is committed to a send on the channel. -/
def Sends (s : State) (i ch : Nat) : Prop :=
  ∃ thread, s.threads[i]? = some thread ∧ thread.program.head = some (Op.chanSend ch)

/-- The thread is a keep-alive goroutine of the channel and has left its `select`. -/
def Left (s : State) (i ch : Nat) : Prop :=
  ∃ thread, s.threads[i]? = some thread ∧ (∃ ip serviceID, thread.call = .keepAlive ip serviceID ch) ∧
    ∀ keepAlive, thread.program.head ≠ some (Op.selectTimer keepAlive ch)

/-- The channel has its goroutine, or a thread is about to start it. -/
def Made (s : State) (ch : Nat) : Prop :=
  ∃ thread ∈ s.threads, (∃ ip serviceID, thread.call = .keepAlive ip serviceID ch) ∨
    ∃ ip serviceID, thread.program.head = some (Op.goKeepAlive ip serviceID ch)

/-- Whoever is committed to a send on a channel is the only one, and the goroutine of the
channel is there, or about to be started, and still in its `select`. -/
def Cancellable (s : State) : Prop :=
  ∀ i ch, Sends s i ch → (∀ j, ¬ Left s j ch) ∧ (∀ j, Sends s j ch → j = i) ∧ Made s ch

/-- An entry is found only while its goroutine is in its `select` and nobody else is
committed to the send, and a timer fires only while nobody is committed to the send. -/
def FindsWaiting (s : State) : Action → Prop
  | .step i _ => ∀ thread, s.threads[i]? = some thread →
      (∀ ip serviceID ch, thread.program.head = some (Op.keepAliveOpsGet ip serviceID) →
        s.world.keepAliveOps (ip, serviceID) = some ch →
          (∀ j, ¬ Left s j ch) ∧ ∀ j, ¬ Sends s j ch) ∧
      ∀ keepAlive ch, thread.program.head = some (Op.selectTimer keepAlive ch) → ∀ j, ¬ Sends s j ch
  | _ => True

/-- A call of `changeServiceReplicas`, the only code that sends on the channel of a
keep-alive. -/
def IsRequest : Call → Prop
  | .request _ _ _ => True
  | _ => False

instance : DecidablePred IsRequest
  | .request _ _ _ => isTrue trivial
  | .keepAlive _ _ _ | .listener _ => isFalse id

/-- No call ever blocks on a channel that nobody will receive from. -/
def NeverBlocked : Prop :=
  ∀ (nodes : Nodes) (w : World) (actions : List Action) (s : State),
    (∀ key, w.keepAliveOps key = none) →
    Meets (machine nodes).step (fun s action => Machine.Admits IsRequest s action ∧
      (machine nodes).AnswersWith Succeeds s action) (start nodes w) actions →
    run (machine nodes).step (start nodes w) actions = some s → Cancellable s

/-- The timer of a keep-alive fires, then an "over" finds its entry, then the goroutine
scales down and ends. -/
def stuck : List Action :=
  .invoke (.request "manager" "web" "under") ::
    (List.replicate 5 (.step 2 false) ++ [.step 3 false, .invoke (.request "manager" "web" "over")] ++
      List.replicate 2 (.step 4 false) ++ List.replicate 10 (.step 3 false))

theorem run_stuck : ∃ s, run (machine pair).step (start pair (awake (web 1))) stuck = some s ∧
    Sends s 4 2 ∧ Left s 3 2 := by
  have hRun : run (machine pair).step (start pair (awake (web 1))) stuck =
      some ((run (machine pair).step (start pair (awake (web 1))) stuck).get (by decide)) := by simp
  exact ⟨_, hRun, ⟨_, rfl, rfl⟩, ⟨_, rfl, ⟨"manager", "web", rfl⟩, nofun⟩⟩

theorem not_neverBlocked : ¬ NeverBlocked := by
  intro h
  obtain ⟨s, hRun, hSends, hLeft⟩ := run_stuck
  exact (h pair (awake (web 1)) stuck s (fun _ => rfl) (by decide) hRun 4 2 hSends).1 3 hLeft

end Threads

section Protocol

variable {Value Other : Type}

/-- What must follow at once: the send on a channel that was found, and the start of the
goroutine whose channel was stored. -/
def after (op : Op) : op.Answer → Option Op :=
  match op with
  | .keepAliveOpsGet _ _ => fun found => found.map Op.chanSend
  | .keepAliveOpsSet ip serviceID ch => fun _ => some (.goKeepAlive ip serviceID ch)
  | _ => fun _ => none

/-- The operations that only ever follow at once on another one. -/
def Bound : Op → Prop
  | .chanSend _ | .goKeepAlive _ _ _ | .selectTimer _ _ => True
  | _ => False

/-- While an operation is expected the code performs it next; otherwise it performs none of
the operations that are bound to the one before them. -/
def expecting : Program.Protocol signature (Option Op) Value where
  permits phase op := match phase with
    | some expected => op = expected ∧ Bound op
    | none => ¬ Bound op
  advance _ op answer := after op answer
  ends phase _ := phase = none

/-- Operations after which nothing is expected. -/
def Plain : Op → Prop
  | .keepAliveOpsGet _ _ | .keepAliveOpsSet _ _ _ => False
  | op => ¬ Bound op

theorem after_of_plain {op : Op} (h : Plain op) (answer : op.Answer) : after op answer = none := by
  cases op <;> first | rfl | exact h.elim

theorem not_bound_of_plain {op : Op} (h : Plain op) : ¬ Bound op := by
  cases op <;> first | exact h | exact h.elim

theorem follows_plain {program : Code Value} (h : program.Uses anyAnswer Plain) :
    program.Follows expecting anyAnswer none := by
  induction program with
  | done value => rfl
  | perform op next ih =>
      refine ⟨not_bound_of_plain h.1, fun answer hAnswer => ?_⟩
      have hNext := ih answer (h.2 answer hAnswer)
      rwa [← after_of_plain h.1 answer] at hNext

/-- One part after the other: each starts and ends where nothing is expected. -/
theorem follows_seq {program : Code Value} {rest : Value → Code Other} {phase : Option Op}
    (h : program.Follows expecting anyAnswer phase)
    (hRest : ∀ value, (rest value).Follows expecting anyAnswer none) :
    (program.bind rest).Follows expecting anyAnswer phase := by
  induction program generalizing phase with
  | done value =>
      obtain rfl : phase = none := h
      exact hRest value
  | perform op next ih => exact ⟨h.1, fun answer hAnswer => ih answer (h.2 answer hAnswer)⟩

/-- Behind a handler nothing is expected after a panic either. -/
theorem follows_handled {program : Code Value} {rest : Option Value → Code Other}
    (h : program.Follows expecting anyAnswer none)
    (hRest : ∀ value, (rest value).Follows expecting anyAnswer none) :
    ((program.attempt Op.trap).bind rest).Follows expecting anyAnswer none := by
  refine Program.follows_attempt (fun phase op handler hTrap hPermits => ?_) ?_
  · obtain ⟨rfl, rfl⟩ := Op.trap_eq_some_iff.mp hTrap
    cases phase with
    | none => exact ⟨id, fun _ _ => hRest none⟩
    | some expected => exact hPermits.2.elim
  · refine @Program.Follows.embed signature Value (Option Op) (Option Op) expecting _ _ _ _ id
      (fun _ _ hPermits => hPermits) (fun _ _ _ _ => rfl) (fun phase value hEnds => ?_) h
    obtain rfl : phase = none := hEnds
    exact hRest (some value)

end Protocol

section Code

variable {serviceID : String}

theorem follows_scaleTo_plain {replicas : UInt64} :
    (scaleTo serviceID replicas).Follows expecting anyAnswer none :=
  follows_plain (uses_scaleTo id id fun _ _ _ => id)

theorem follows_updateServiceConstraints {service : Service} {add : Bool} :
    (updateServiceConstraints service add).Follows expecting anyAnswer none :=
  follows_plain (uses_updateServiceConstraints id fun _ _ _ => id)

theorem follows_cancelKeepAlive {self : Instance} {replicas : UInt64} :
    (cancelKeepAlive self serviceID replicas).Follows expecting anyAnswer none := by
  refine ⟨id, fun found _ => ?_⟩
  cases found with
  | none => exact follows_scaleTo_plain
  | some ch => exact ⟨⟨rfl, trivial⟩, fun _ _ => ⟨id, fun _ _ => follows_scaleTo_plain⟩⟩

theorem follows_startKeepAlive {self : Instance} :
    (startKeepAlive self serviceID).Follows expecting anyAnswer none := by
  refine ⟨id, fun exists? _ => ?_⟩
  cases exists? with
  | true => rfl
  | false => exact ⟨id, fun _ _ => ⟨id, fun _ _ => ⟨⟨rfl, trivial⟩, fun _ _ => rfl⟩⟩⟩

theorem follows_changeOver {self : Instance} {service : Service} {count : UInt64} :
    (changeOver self serviceID service count).Follows expecting anyAnswer none := by
  refine follows_seq ?_ fun result => ?_
  · split
    · exact follows_updateServiceConstraints
    · rfl
  · cases result with
    | error err => rfl
    | ok _ => exact follows_cancelKeepAlive

theorem follows_changeUnder {self : Instance} {service : Service} {count : UInt64} :
    (changeUnder self serviceID service count).Follows expecting anyAnswer none := by
  unfold changeUnder
  split
  · refine follows_seq ?_ fun result => ?_
    · split
      · exact follows_updateServiceConstraints
      · rfl
    · cases result with
      | error err => rfl
      | ok _ => exact follows_scaleTo_plain
  · exact follows_startKeepAlive

theorem follows_changeServiceReplicas {self : Instance} {direction : String} :
    (changeServiceReplicas self serviceID direction).Follows expecting anyAnswer none := by
  unfold changeServiceReplicas
  split
  · rfl
  · refine ⟨id, fun answer _ => ?_⟩
    cases answer with
    | error err => rfl
    | ok service =>
        dsimp only
        split
        · rfl
        · split
          · exact follows_changeOver
          · split
            · exact follows_changeUnder
            · rfl

theorem follows_sendScaleRequest {nodes : Nodes} {managerIP : String} :
    (sendScaleRequest (changeServiceReplicas ⟨managerIP, nodes.info managerIP⟩) serviceID "over"
      managerIP).Follows expecting anyAnswer none := by
  refine ⟨id, fun answer _ => ?_⟩
  cases answer with
  | error err => rfl
  | ok _ =>
      refine follows_handled (follows_seq follows_changeServiceReplicas fun result => ?_) fun response => ?_
      · cases result <;> rfl
      · cases response <;> rfl

theorem follows_wakeUp {nodes : Nodes} {ip : String} {port : UInt32} :
    (wakeUp nodes ip port serviceID).Follows expecting anyAnswer none := by
  refine follows_seq (follows_plain (uses_removePort id id id)) fun _ => ?_
  refine follows_seq (follows_plain (uses_broadcast fun ip => uses_post id (fun _ => id) fun _ =>
    uses_removePort id id id)) fun _ => ?_
  unfold scaleBackUp
  split
  · exact follows_scaleTo_plain
  · exact follows_sendScaleRequest

theorem follows_listenForEvents {nodes : Nodes} {ip : String} :
    (listenForEvents nodes ip).Follows expecting anyAnswer none := by
  refine ⟨id, fun answer _ => ?_⟩
  cases answer with
  | error err => rfl
  | ok rawSample =>
      dsimp only
      split
      · refine ⟨id, fun found _ => ?_⟩
        cases found with
        | none => rfl
        | some id => exact follows_wakeUp
      · rfl

theorem follows_keepAlive {self : Instance} {ch : Nat} :
    (keepAliveAndScaleDown self serviceID ch).Follows expecting anyAnswer
      (some (.selectTimer self.nodeInfo.keepAlive ch)) := by
  refine ⟨⟨rfl, trivial⟩, fun ready _ => ?_⟩
  cases ready with
  | received => rfl
  | timer =>
      exact follows_plain (uses_scaleDown id id (fun _ _ => id) (fun _ _ => id) (fun _ => id) id id
        (fun _ _ _ => id) id)

end Code

section Invariant

variable {nodes : Nodes} {w : World} {s t : State} {action : Action}

/-- The code of every thread; only a goroutine itself selects on its channel. -/
def Expected (call : Call) (program : Code Result) : Prop :=
  (∃ phase, program.Follows expecting anyAnswer phase) ∧
    ∀ keepAlive ch, program.head = some (Op.selectTimer keepAlive ch) →
      ∃ ip serviceID, call = .keepAlive ip serviceID ch

/-- What a thread is bound to do next is what was expected after its last answer. -/
theorem head_settle {call : Call} {op : Op} {next : op.Answer → Code Result} (answer : op.Answer)
    (h : Expected call (.perform op next)) (bound : Op) (hBound : Bound bound) :
    ((machine nodes).settle call (next answer)).head = some bound ↔ after op answer = some bound := by
  obtain ⟨phase, _, hFollows⟩ := h.1
  have hNext := hFollows answer trivial
  revert hNext
  simp only [expecting]
  generalize next answer = program
  intro hNext
  cases program with
  | done result =>
      have hNone : after op answer = none := hNext
      rw [hNone]
      constructor
      · intro hHead
        cases call with
        | listener ip =>
            cases hHead
            exact hBound.elim
        | _ => cases hHead
      · exact nofun
  | perform other rest =>
      have hPermits := hNext.1
      revert hPermits
      cases after op answer with
      | none =>
          intro hFree
          refine ⟨fun hHead => ?_, nofun⟩
          cases hHead
          exact absurd hBound hFree
      | some expected =>
          rintro ⟨rfl, _⟩
          rfl

theorem Expected.next {call : Call} {op : Op} {next : op.Answer → Code Result} (answer : op.Answer)
    (h : Expected call (.perform op next)) :
    Expected call ((machine nodes).settle call (next answer)) := by
  refine ⟨?_, fun keepAlive ch hHead => ?_⟩
  · obtain ⟨phase, _, hFollows⟩ := h.1
    have hNext := hFollows answer trivial
    revert hNext
    generalize next answer = program
    intro hNext
    cases program with
    | done result =>
        cases call with
        | listener ip => exact ⟨_, follows_listenForEvents⟩
        | _ => exact ⟨_, hNext⟩
    | perform other rest => exact ⟨_, hNext⟩
  · have hAfter := (head_settle answer h (.selectTimer keepAlive ch) trivial).mp hHead
    cases op with
    | keepAliveOpsGet =>
        obtain ⟨_, _, hOp⟩ := Option.map_eq_some_iff.mp hAfter
        cases hOp
    | _ => cases hAfter

theorem expected_body {call : Call} : Expected call (body nodes call) := by
  cases call with
  | request ip serviceID direction =>
      refine ⟨⟨_, follows_changeServiceReplicas⟩, fun keepAlive ch hHead => ?_⟩
      simp only [body, changeServiceReplicas] at hHead
      split at hHead <;> cases hHead
  | keepAlive ip serviceID ch =>
      refine ⟨⟨_, follows_keepAlive⟩, fun keepAlive ch hHead => ?_⟩
      cases hHead
      exact ⟨ip, serviceID, rfl⟩
  | listener ip => exact ⟨⟨_, follows_listenForEvents⟩, fun keepAlive ch hHead => by cases hHead⟩

/-- No call of this state is a goroutine started from outside, and every entry of the
keep-alive table and every committed send has its channel made. -/
structure ChannelInv (s : State) : Prop where
  logged : Machine.Logged s
  threads : Machine.AllThreads Expected s
  stored : ∀ key ch, s.world.keepAliveOps key = some ch → Made s ch
  sent : ∀ i ch, Sends s i ch → Made s ch

section Resume

variable {i j ch : Nat} {call : Call} {op : Op} {next : op.Answer → Code Result} {answer : op.Answer}

theorem sends_resume (atOp : s.threads[i]? = some ⟨call, .perform op next⟩)
    (h : Expected call (.perform op next)) :
    Sends ((machine nodes).resume s i call op next answer) j ch ↔
      (j ≠ i ∧ Sends s j ch) ∨ (j = i ∧ after op answer = some (.chanSend ch)) := by
  have hSettle := @head_settle nodes call op next answer h (.chanSend ch) trivial
  constructor
  · rintro ⟨thread, hThread, hHead⟩
    rcases (machine nodes).resume_threads hThread with ⟨rfl, rfl⟩ | ⟨hOther, hOld⟩ | ⟨_, child, hFork, rfl⟩
    · exact Or.inr ⟨rfl, hSettle.mp hHead⟩
    · exact Or.inl ⟨hOther, thread, hOld, hHead⟩
    · cases op with
      | goKeepAlive =>
          cases hFork
          cases hHead
      | _ => cases hFork
  · rintro (⟨hOther, thread, hThread, hHead⟩ | ⟨rfl, hAfter⟩)
    · exact ⟨thread, (machine nodes).resume_other hThread hOther, hHead⟩
    · exact ⟨_, (machine nodes).resume_self (List.getElem?_eq_some_iff.mp atOp).1, hSettle.mpr hAfter⟩

theorem left_resume (atOp : s.threads[i]? = some ⟨call, .perform op next⟩)
    (h : Expected call (.perform op next)) :
    Left ((machine nodes).resume s i call op next answer) j ch ↔
      Left s j ch ∨ (j = i ∧ ∃ keepAlive, op = .selectTimer keepAlive ch) := by
  constructor
  · rintro ⟨thread, hThread, hCall, hHead⟩
    rcases (machine nodes).resume_threads hThread with ⟨rfl, rfl⟩ | ⟨_, hOld⟩ | ⟨_, child, hFork, rfl⟩
    · by_cases hSelect : ∃ keepAlive, op = .selectTimer keepAlive ch
      · exact Or.inr ⟨rfl, hSelect⟩
      · refine Or.inl ⟨_, atOp, hCall, fun keepAlive hOp => hSelect ⟨keepAlive, ?_⟩⟩
        exact Option.some.inj hOp
    · exact Or.inl ⟨thread, hOld, hCall, hHead⟩
    · cases op with
      | goKeepAlive ip serviceID ch' =>
          cases hFork
          obtain ⟨ip', id', hCall⟩ := hCall
          cases hCall
          exact absurd rfl (hHead _)
      | _ => cases hFork
  · have hAway (keepAlive : Nat) :
        ((machine nodes).settle call (next answer)).head ≠ some (.selectTimer keepAlive ch) := by
      intro hHead
      have hAfter := (head_settle answer h (.selectTimer keepAlive ch) trivial).mp hHead
      cases op with
      | keepAliveOpsGet =>
          obtain ⟨_, _, hOp⟩ := Option.map_eq_some_iff.mp hAfter
          cases hOp
      | _ => cases hAfter
    have hSelf : ((machine nodes).resume s i call op next answer).threads[i]? = _ :=
      (machine nodes).resume_self (List.getElem?_eq_some_iff.mp atOp).1
    rintro (⟨thread, hThread, hCall, hHead⟩ | ⟨rfl, keepAlive, rfl⟩)
    · by_cases hSame : j = i
      · subst hSame
        rw [atOp] at hThread
        cases hThread
        exact ⟨_, hSelf, hCall, hAway⟩
      · exact ⟨thread, (machine nodes).resume_other hThread hSame, hCall, hHead⟩
    · exact ⟨_, hSelf, h.2 keepAlive ch rfl, hAway⟩

theorem made_resume (atOp : s.threads[i]? = some ⟨call, .perform op next⟩) (h : Made s ch) :
    Made ((machine nodes).resume s i call op next answer) ch := by
  obtain ⟨thread, hMem, hThread⟩ := h
  obtain ⟨j, hj⟩ := List.mem_iff_getElem?.mp hMem
  by_cases hji : j = i
  · subst hji
    rw [atOp] at hj
    cases hj
    rcases hThread with hCall | ⟨ip, serviceID, hHead⟩
    · have hSelf : ((machine nodes).resume s j call op next answer).threads[j]? = _ :=
        (machine nodes).resume_self (List.getElem?_eq_some_iff.mp atOp).1
      exact ⟨_, List.mem_of_getElem? hSelf, Or.inl hCall⟩
    · cases hHead
      refine ⟨(machine nodes).spawn (.keepAlive ip serviceID ch), ?_, Or.inl ⟨ip, serviceID, rfl⟩⟩
      exact List.mem_append_right _ (List.mem_singleton.mpr rfl)
  · exact ⟨thread, List.mem_of_getElem? ((machine nodes).resume_other hj hji), hThread⟩

theorem made_invoke (h : Made s ch) :
    Made { s with threads := s.threads ++ [(machine nodes).spawn call] } ch := by
  obtain ⟨thread, hMem, hThread⟩ := h
  exact ⟨thread, List.mem_append_left _ hMem, hThread⟩

end Resume

theorem ChannelInv.start (hEmpty : ∀ key, w.keepAliveOps key = none) : ChannelInv (start nodes w) where
  logged := Machine.logged_of_nil rfl
  threads i thread hThread := by
    obtain ⟨ip, _, rfl⟩ := List.mem_map.mp (List.mem_of_getElem? hThread)
    exact @expected_body nodes (.listener ip)
  stored key ch hStored := by
    cases (hEmpty key).symm.trans hStored
  sent i ch hSends := by
    obtain ⟨thread, hThread, hHead⟩ := hSends
    obtain ⟨ip, _, rfl⟩ := List.mem_map.mp (List.mem_of_getElem? hThread)
    cases hHead

theorem sends_invoke {call : Call} {i ch : Nat} :
    Sends { s with threads := s.threads ++ [(machine nodes).spawn call] } i ch ↔ Sends s i ch := by
  constructor
  · rintro ⟨thread, hThread, hHead⟩
    rcases (machine nodes).invoke_threads.mp hThread with hOld | ⟨_, rfl⟩
    · exact ⟨thread, hOld, hHead⟩
    · cases call with
      | request ip serviceID direction =>
          simp only [Machine.spawn, machine, body, changeServiceReplicas] at hHead
          split at hHead <;> cases hHead
      | keepAlive | listener => cases hHead
  · rintro ⟨thread, hThread, hHead⟩
    exact ⟨thread, (machine nodes).invoke_threads.mpr (Or.inl hThread), hHead⟩

theorem left_invoke {call : Call} {i ch : Nat} (hRequest : IsRequest call) :
    Left { s with threads := s.threads ++ [(machine nodes).spawn call] } i ch ↔ Left s i ch := by
  constructor
  · rintro ⟨thread, hThread, hCall, hHead⟩
    rcases (machine nodes).invoke_threads.mp hThread with hOld | ⟨_, rfl⟩
    · exact ⟨thread, hOld, hCall, hHead⟩
    · obtain ⟨ip, serviceID, hCall⟩ := hCall
      obtain rfl : call = .keepAlive ip serviceID ch := hCall
      exact hRequest.elim
  · rintro ⟨thread, hThread, hCall, hHead⟩
    exact ⟨thread, (machine nodes).invoke_threads.mpr (Or.inl hThread), hCall, hHead⟩

theorem ChannelInv.threads_step (hInv : ChannelInv s) (hAdmits : Machine.Admits IsRequest s action)
    (hStep : (machine nodes).step s action = some t) : Machine.AllThreads Expected t :=
  (machine nodes).allThreads_step_any (fun _ _ => expected_body) (fun _ _ _ _ _ _ => expected_body)
    (fun _ _ _ answer h => h.next answer) hInv.logged hAdmits hInv.threads hStep

theorem ChannelInv.sent_step (hInv : ChannelInv s)
    (hStep : (machine nodes).step s action = some t) :
    ∀ i ch, Sends t i ch → Made t ch := by
  cases (machine nodes).stepCase_of_step hStep with
  | invoke call => exact fun i ch hSends => made_invoke (hInv.sent i ch (sends_invoke.mp hSends))
  | disturb happens => exact hInv.sent
  | meet atSend atReceive apart met waits =>
      intro k ch hSends
      obtain ⟨ch', keepAlive, rfl, rfl⟩ := channel_of_meet met
      rcases (sends_resume waits (hInv.threads _ _ atReceive)).mp hSends with ⟨_, hOld⟩ | ⟨_, hNew⟩
      · rcases (sends_resume atSend (hInv.threads _ _ atSend)).mp hOld with ⟨_, hOld⟩ | ⟨_, hNew⟩
        · exact made_resume waits (made_resume atSend (hInv.sent k ch hOld))
        · cases hNew
      · cases hNew
  | @step i fail call op next answer world atOp answered =>
      intro k ch hSends
      rcases (sends_resume (s := { s with world := world }) atOp (hInv.threads _ _ atOp)).mp hSends with
        ⟨_, hOld⟩ | ⟨_, hNew⟩
      · exact made_resume (s := { s with world := world }) atOp (hInv.sent k ch hOld)
      · cases op with
        | keepAliveOpsGet ip serviceID =>
            obtain ⟨hFound, _⟩ := found_of_exec answered
            obtain ⟨_, hSome, hCh⟩ := Option.map_eq_some_iff.mp hNew
            cases hCh
            exact made_resume (s := { s with world := world }) atOp
              (hInv.stored _ _ (hFound.symm.trans hSome))
        | _ => cases hNew

theorem ChannelInv.stored_step (hInv : ChannelInv s)
    (hStep : (machine nodes).step s action = some t) :
    ∀ key ch, t.world.keepAliveOps key = some ch → Made t ch := by
  cases (machine nodes).stepCase_of_step hStep with
  | invoke call => exact fun key ch hStored => made_invoke (hInv.stored key ch hStored)
  | disturb happens =>
      intro key ch hStored
      exact hInv.stored key ch (by rwa [(disturb_eq happens).1] at hStored)
  | meet atSend atReceive apart met waits =>
      intro key ch hStored
      exact made_resume waits (made_resume atSend (hInv.stored key ch hStored))
  | @step i fail call op next answer world atOp answered =>
      intro key ch hStored
      have old (h : s.world.keepAliveOps key = some ch) :
          Made ((machine nodes).resume { s with world := world } i call op next answer) ch :=
        made_resume (s := { s with world := world }) atOp (hInv.stored key ch h)
      simp only [Machine.resume_world] at hStored
      cases effect_of_exec answered with
      | keepAliveSet ip serviceID ch' =>
          by_cases hKey : key = (ip, serviceID)
          · obtain rfl : ch' = ch := by simpa [hKey] using hStored
            have hHead := (@head_settle nodes call (.keepAliveOpsSet ip serviceID ch') next ()
              (hInv.threads _ _ atOp) (.goKeepAlive ip serviceID ch') trivial).mpr rfl
            have hSelf : ((machine nodes).resume { s with world := _ } i call _ next ()).threads[i]? = _ :=
              (machine nodes).resume_self (List.getElem?_eq_some_iff.mp atOp).1
            exact ⟨_, List.mem_of_getElem? hSelf, Or.inr ⟨ip, serviceID, hHead⟩⟩
          · exact old (by simpa [Function.update_of_ne hKey] using hStored)
      | keepAliveDelete ip serviceID =>
          by_cases hKey : key = (ip, serviceID)
          · simp [hKey] at hStored
          · exact old (by simpa [Function.update_of_ne hKey] using hStored)
      | none | update | portStore | portDelete | mapUpdate | mapDelete | read => exact old hStored

theorem ChannelInv.step (hInv : ChannelInv s) (hAdmits : Machine.Admits IsRequest s action)
    (hStep : (machine nodes).step s action = some t) : ChannelInv t :=
  ⟨(machine nodes).logged_step hInv.logged hStep, hInv.threads_step hAdmits hStep,
    hInv.stored_step hStep, hInv.sent_step hStep⟩

end Invariant

section Exact

/-- Senders and departed receivers by thread and channel. Every committed sender is alone
and its channel's receiver is still there. -/
def Matched (sends left : Nat → Nat → Prop) : Prop :=
  ∀ i ch, sends i ch → (∀ j, ¬ left j ch) ∧ ∀ j, sends j ch → j = i

/-- One thread commits to the channels of `finds` and leaves those of `leaves`. -/
theorem matched_move_iff {sends left sends' left' : Nat → Nat → Prop} {finds leaves : Nat → Prop} {i : Nat}
    (hSends : ∀ j ch, sends' j ch ↔ (j ≠ i ∧ sends j ch) ∨ (j = i ∧ finds ch))
    (hLeft : ∀ j ch, left' j ch ↔ left j ch ∨ (j = i ∧ leaves ch))
    (hFree : ∀ ch, ¬ sends i ch) (hApart : ∀ ch, finds ch → ∀ ch', ¬ leaves ch')
    (h : Matched sends left) :
    Matched sends' left' ↔ (∀ ch, finds ch → (∀ j, ¬ left j ch) ∧ ∀ j, ¬ sends j ch) ∧
      ∀ ch, leaves ch → ∀ j, ¬ sends j ch := by
  constructor
  · intro h'
    refine ⟨fun ch hFinds => ⟨fun j hLeaves => ?_, fun j hj => ?_⟩, fun ch hLeaves j hj => ?_⟩
    · have hSelf := (hSends i ch).mpr (Or.inr ⟨rfl, hFinds⟩)
      exact (h' i ch hSelf).1 j ((hLeft j ch).mpr (Or.inl hLeaves))
    · have hSelf := (hSends i ch).mpr (Or.inr ⟨rfl, hFinds⟩)
      have hOther : j ≠ i := fun hSame => hFree ch (hSame ▸ hj)
      exact hOther ((h' i ch hSelf).2 j ((hSends j ch).mpr (Or.inl ⟨hOther, hj⟩)))
    · have hOther : j ≠ i := fun hSame => hFree ch (hSame ▸ hj)
      exact (h' j ch ((hSends j ch).mpr (Or.inl ⟨hOther, hj⟩))).1 i ((hLeft i ch).mpr (Or.inr ⟨rfl, hLeaves⟩))
  · rintro ⟨hFinds, hLeaves⟩ j ch hj
    rcases (hSends j ch).mp hj with ⟨hOther, hOld⟩ | ⟨rfl, hNew⟩
    · refine ⟨fun k hk => ?_, fun k hk => ?_⟩
      · rcases (hLeft k ch).mp hk with hBefore | ⟨_, hLeaving⟩
        · exact (h j ch hOld).1 k hBefore
        · exact hLeaves ch hLeaving j hOld
      · rcases (hSends k ch).mp hk with ⟨_, hBefore⟩ | ⟨_, hFinding⟩
        · exact (h j ch hOld).2 k hBefore
        · exact absurd hOld ((hFinds ch hFinding).2 j)
    · refine ⟨fun k hk => ?_, fun k hk => ?_⟩
      · rcases (hLeft k ch).mp hk with hBefore | ⟨_, hLeaving⟩
        · exact (hFinds ch hNew).1 k hBefore
        · exact hApart ch hNew ch hLeaving
      · rcases (hSends k ch).mp hk with ⟨_, hBefore⟩ | ⟨hSame, _⟩
        · exact absurd hBefore ((hFinds ch hNew).2 k)
        · exact hSame

variable {nodes : Nodes} {s t : State} {action : Action}

theorem cancellable_iff_matched (hInv : ChannelInv s) : Cancellable s ↔ Matched (Sends s) (Left s) :=
  ⟨fun h i ch hSends => ⟨(h i ch hSends).1, (h i ch hSends).2.1⟩,
    fun h i ch hSends => ⟨(h i ch hSends).1, (h i ch hSends).2, hInv.sent i ch hSends⟩⟩

theorem findsWaiting_step_iff {i : Nat} {fail : Bool} {call : Call} {op : Op} {answer : op.Answer}
    {next : op.Answer → Code Result} {world : World}
    (atOp : s.threads[i]? = some ⟨call, .perform op next⟩)
    (answered : exec nodes i op fail s.world = some (answer, world)) :
    FindsWaiting s (.step i fail) ↔
      (∀ ch, after op answer = some (.chanSend ch) → (∀ j, ¬ Left s j ch) ∧ ∀ j, ¬ Sends s j ch) ∧
        ∀ ch, (∃ keepAlive, op = .selectTimer keepAlive ch) → ∀ j, ¬ Sends s j ch := by
  constructor
  · intro h
    obtain ⟨hGet, hSelect⟩ := h _ atOp
    refine ⟨fun ch hAfter => ?_, fun ch ⟨keepAlive, hOp⟩ => hSelect keepAlive ch (congrArg some hOp)⟩
    cases op with
    | keepAliveOpsGet ip serviceID =>
        obtain ⟨_, hSome, hCh⟩ := Option.map_eq_some_iff.mp hAfter
        cases hCh
        exact hGet ip serviceID ch rfl ((found_of_exec answered).1.symm.trans hSome)
    | _ => cases hAfter
  · rintro ⟨hFinds, hLeaves⟩ thread hThread
    rw [atOp] at hThread
    cases hThread
    refine ⟨fun ip serviceID ch hOp hStored => ?_, fun keepAlive ch hOp => ?_⟩
    · cases hOp
      refine hFinds ch ?_
      rw [(found_of_exec answered).1, hStored]
      rfl
    · exact hLeaves ch ⟨keepAlive, Option.some.inj hOp⟩

theorem cancellable_step_iff (hInv : ChannelInv s) (hAdmits : Machine.Admits IsRequest s action)
    (h : Cancellable s) (hStep : (machine nodes).step s action = some t) :
    Cancellable t ↔ FindsWaiting s action := by
  have hNext := hInv.step hAdmits hStep
  rw [cancellable_iff_matched hInv] at h
  rw [cancellable_iff_matched hNext]
  cases (machine nodes).stepCase_of_step hStep with
  | invoke call =>
      refine iff_of_true (fun i ch hSends => ?_) trivial
      obtain ⟨hLeft, hSole⟩ := h i ch (sends_invoke.mp hSends)
      exact ⟨fun j hj => hLeft j ((left_invoke hAdmits).mp hj), fun j hj => hSole j (sends_invoke.mp hj)⟩
  | disturb happens => exact iff_of_true h trivial
  | @meet i j sender receiver send receive sent received answers atSend atReceive apart met waits =>
      refine iff_of_true (fun k ch hSends => ?_) trivial
      obtain ⟨ch', keepAlive, rfl, rfl⟩ := channel_of_meet met
      have hSend := hInv.threads _ _ atSend
      have hReceive := hInv.threads _ _ atReceive
      have before {l c : Nat} (hl : Sends ((machine nodes).resume ((machine nodes).resume s i sender
          (.chanSend ch') sent answers.1) j receiver (.selectTimer keepAlive ch') received answers.2) l c) :
          l ≠ i ∧ Sends s l c := by
        obtain ⟨_, hOld⟩ := ((sends_resume waits hReceive).mp hl).resolve_right nofun
        exact ((sends_resume atSend hSend).mp hOld).resolve_right nofun
      obtain ⟨hOther, hOld⟩ := before hSends
      obtain ⟨hLeft, hSole⟩ := h k ch hOld
      refine ⟨fun l hl => ?_, fun l hl => hSole l (before hl).2⟩
      rcases (left_resume waits hReceive).mp hl with hSent | ⟨_, _, hSelect⟩
      · rcases (left_resume atSend hSend).mp hSent with hBefore | ⟨_, _, hOp⟩
        · exact hLeft l hBefore
        · cases hOp
      · cases hSelect
        exact hOther (hSole i ⟨_, atSend, rfl⟩).symm
  | @step i fail call op next answer world atOp answered =>
      rw [findsWaiting_step_iff atOp answered]
      have hFree (ch : Nat) : ¬ Sends s i ch := by
        rintro ⟨thread, hThread, hHead⟩
        rw [atOp] at hThread
        cases hThread
        cases hHead
        cases fail <;> cases answered
      refine matched_move_iff (fun j ch => sends_resume (s := { s with world := world }) atOp
        (hInv.threads _ _ atOp))
        (fun j ch => left_resume (s := { s with world := world }) atOp (hInv.threads _ _ atOp)) hFree ?_ h
      rintro ch hFinds ch' ⟨keepAlive, rfl⟩
      cases hFinds

/-- No call is ever stuck on a channel exactly when every step finds the goroutine of an
entry waiting for it. -/
theorem cancellable_throughout_iff {w : World} {actions : List Action} {s : State}
    (hEmpty : ∀ key, w.keepAliveOps key = none)
    (hRequests : Meets (machine nodes).step (Machine.Admits IsRequest) (start nodes w) actions)
    (hRun : run (machine nodes).step (start nodes w) actions = some s) :
    Throughout (machine nodes).step Cancellable (start nodes w) actions ↔
      Meets (machine nodes).step FindsWaiting (start nodes w) actions := by
  have keep (s : State) (action : Action) (t : State) (hInv : ChannelInv s)
      (hAdmits : Machine.Admits IsRequest s action) (_ : FindsWaiting s action)
      (hStep : (machine nodes).step s action = some t) : ChannelInv t := hInv.step hAdmits hStep
  refine throughout_iff_meets keep (fun _ _ _ hInv hAdmits h => cancellable_step_iff hInv hAdmits h)
    (ChannelInv.start hEmpty) ?_ hRequests hRun
  rintro i ch ⟨thread, hThread, hHead⟩
  obtain ⟨ip, _, rfl⟩ := List.mem_map.mp (List.mem_of_getElem? hThread)
  cases hHead

theorem not_findsWaiting_stuck :
    ¬ Meets (machine pair).step FindsWaiting (start pair (awake (web 1))) stuck := by
  obtain ⟨s, hRun, hSends, hLeft⟩ := run_stuck
  intro hMeets
  have hCancellable := (cancellable_throughout_iff (fun _ => rfl) (by decide) hRun).mpr hMeets
  exact (hCancellable.at_finish hRun 4 2 hSends).1 3 hLeft

end Exact

end Cluster
