import Mathlib.Logic.Function.Basic
import SwarmAutoscaler.Process.Machine

/-! Phases of threads. The phase of a thread is computed from its own events in the log,
by an automaton that belongs to its call; the code of a tracked thread keeps to the
protocol of that automaton from the phase it has reached. -/
namespace Process

variable {S : Signature} {Call Result Phase : Type}

/-- The phase of thread `i` after the events of the log. -/
def phaseOf (advance : Phase → (op : S.Op) → S.Answer op → Phase) (initial : Phase)
    (log : List (Event S Result)) (i : Nat) : Phase :=
  log.foldl (fun phase event =>
    if event.thread = i then advance phase event.op event.answer else phase) initial

section PhaseOf

variable {advance : Phase → (op : S.Op) → S.Answer op → Phase} {initial : Phase}
  {log : List (Event S Result)} {event : Event S Result} {i : Nat}

theorem phaseOf_append_self (h : event.thread = i) :
    phaseOf advance initial (log ++ [event]) i =
      advance (phaseOf advance initial log i) event.op event.answer := by
  simp [phaseOf, h]

theorem phaseOf_append_other (h : event.thread ≠ i) :
    phaseOf advance initial (log ++ [event]) i = phaseOf advance initial log i := by
  simp [phaseOf, h]

theorem phaseOf_fresh (h : ∀ event ∈ log, event.thread ≠ i) :
    phaseOf advance initial log i = initial := by
  induction log with
  | nil => rfl
  | cons event rest ih =>
      have hHead := h event (List.mem_cons_self ..)
      simpa [phaseOf, hHead] using ih fun other hOther => h other (List.mem_cons_of_mem _ hOther)

/-- A phase that only remembers whether something has happened to the thread. -/
theorem phaseOf_once {happens : (op : S.Op) → S.Answer op → Bool} {before : Bool} :
    phaseOf (fun happened op answer => happened || happens op answer) before log i = true ↔
      before = true ∨ ∃ event ∈ log, event.thread = i ∧ happens event.op event.answer = true := by
  induction log generalizing before with
  | nil => simp [phaseOf]
  | cons event rest ih =>
      have hRest : phaseOf (fun happened op answer => happened || happens op answer) before (event :: rest) i =
          phaseOf (fun happened op answer => happened || happens op answer)
            (if event.thread = i then before || happens event.op event.answer else before) rest i := rfl
      rw [hRest, ih]
      by_cases hOwn : event.thread = i <;> simp [hOwn, or_assoc]

end PhaseOf

/-- A protocol for every kind of thread, and the phase in which its code starts. -/
structure Tracking (S : Signature) (Call Phase Result : Type) where
  protocol : Call → Program.Protocol S Phase Result
  initial : Call → Phase

namespace Tracking

variable {World Env : Type} (T : Tracking S Call Phase Result)

/-- The phase that a thread has reached by its events in the log. -/
def phase (log : List (Event S Result)) (i : Nat) (call : Call) : Phase :=
  phaseOf (T.protocol call).advance (T.initial call) log i

/-- The rest of the thread's code keeps to the protocol from the phase it is in. -/
def Tracked (log : List (Event S Result)) (i : Nat) (call : Call) (program : Program S Result) : Prop :=
  program.Follows (T.protocol call) (fun _ _ => True) (T.phase log i call)

theorem phase_append_self {log : List (Event S Result)} {i : Nat} {call : Call} {op : S.Op}
    {answer : S.Answer op} {result : Option Result} :
    T.phase (log ++ [⟨i, op, answer, result⟩]) i call =
      (T.protocol call).advance (T.phase log i call) op answer :=
  phaseOf_append_self rfl

theorem phase_append_other {log : List (Event S Result)} {event : Event S Result} {i : Nat} {call : Call}
    (h : event.thread ≠ i) : T.phase (log ++ [event]) i call = T.phase log i call :=
  phaseOf_append_other h

/-- Every thread stays tracked, whatever it is answered, if the code of every call keeps
to its protocol, also when it starts over. -/
theorem tracked_step (M : Machine S World Call Result Env)
    (hBody : ∀ call, (M.body call).Follows (T.protocol call) (fun _ _ => True) (T.initial call))
    (hAgain : ∀ call phase result program, (T.protocol call).ends phase result →
      M.again call result = some program → program.Follows (T.protocol call) (fun _ _ => True) phase)
    {s t : State S World Call Result} {action : Action Call Env} (hLogged : Machine.Logged s)
    (h : Machine.EachThread T.Tracked s) (hStep : M.step s action = some t) :
    Machine.EachThread T.Tracked t := by
  have hExec : M.AnswersWith (fun _ _ => True) s action := fun _ _ => trivial
  have hAdmits : Machine.Admits (fun _ => True) s action := by cases action <;> trivial
  refine M.eachThread_step ?_ ?_ ?_ ?_ hLogged hExec (fun _ _ _ _ => ⟨trivial, trivial⟩) hAdmits h hStep
  · intro log i call hFresh _
    rw [Tracked, phase, phaseOf_fresh hFresh]
    exact hBody call
  · intro log i call op next child _ _ log' j hFresh
    rw [Tracked, phase, phaseOf_fresh hFresh]
    exact hBody child
  · intro log i call op next answer _ hFollows
    rw [Tracked, phase_append_self]
    have hNext := hFollows.2 answer trivial
    revert hNext
    generalize next answer = program
    intro hNext
    cases program with
    | perform other rest => exact hNext
    | done result =>
        cases hRest : M.again call result with
        | none => simpa [Machine.settle, hRest] using hNext
        | some program => simpa [Machine.settle, hRest] using hAgain call _ result program hNext hRest
  · intro log event i call program hOther hFollows
    rwa [Tracked, phase_append_other T hOther]

/-- The phase of thread `i` while it is running. -/
def running (s : State S World Call Result) (i : Nat) : Option Phase :=
  (s.threads[i]?).bind fun thread => thread.program.head.map fun _ => T.phase s.log i thread.call

section Running

variable (M : Machine S World Call Result Env) {s : State S World Call Result} {i j : Nat} {call : Call}
  {op : S.Op} {next : S.Answer op → Program S Result} {answer : S.Answer op} {phase : Phase}

theorem running_of_perform (atOp : s.threads[i]? = some ⟨call, .perform op next⟩) :
    T.running s i = some (T.phase s.log i call) := by
  simp [running, atOp]

/-- A thread that runs after the step has advanced, has not been touched, or is new. -/
theorem running_resume (atOp : s.threads[i]? = some ⟨call, .perform op next⟩) (hLogged : Machine.Logged s)
    (h : T.running (M.resume s i call op next answer) j = some phase) :
    (j = i ∧ phase = (T.protocol call).advance (T.phase s.log i call) op answer) ∨
      (j ≠ i ∧ T.running s j = some phase) ∨
      (j = s.threads.length ∧ ∃ child, M.forks op = some child ∧ phase = T.initial child) := by
  obtain ⟨thread, hThread, hPhase⟩ := Option.bind_eq_some_iff.mp h
  obtain ⟨head, hHead, hPhase⟩ := Option.map_eq_some_iff.mp hPhase
  rcases M.resume_threads hThread with ⟨rfl, rfl⟩ | ⟨hOther, hOld⟩ | ⟨rfl, child, hFork, rfl⟩
  · rw [Machine.resume_log, phase_append_self] at hPhase
    exact Or.inl ⟨rfl, hPhase.symm⟩
  · rw [Machine.resume_log, phase_append_other T (Ne.symm hOther)] at hPhase
    exact Or.inr (Or.inl ⟨hOther, by simp [running, hOld, hHead, hPhase]⟩)
  · have hApart : i ≠ s.threads.length := Nat.ne_of_lt (List.getElem?_eq_some_iff.mp atOp).1
    rw [Machine.resume_log, phase_append_other T hApart, Tracking.phase, phaseOf_fresh hLogged.fresh] at hPhase
    exact Or.inr (Or.inr ⟨rfl, child, hFork, hPhase.symm⟩)

theorem running_invoke {started : Call} (hLogged : Machine.Logged s)
    (h : T.running { s with threads := s.threads ++ [M.spawn started] } j = some phase) :
    T.running s j = some phase ∨ (j = s.threads.length ∧ phase = T.initial started) := by
  obtain ⟨thread, hThread, hPhase⟩ := Option.bind_eq_some_iff.mp h
  obtain ⟨head, hHead, hPhase⟩ := Option.map_eq_some_iff.mp hPhase
  rcases M.invoke_threads.mp hThread with hOld | ⟨rfl, rfl⟩
  · exact Or.inl (by simp [running, hOld, hHead, hPhase])
  · rw [Tracking.phase, phaseOf_fresh hLogged.fresh] at hPhase
    exact Or.inr ⟨rfl, hPhase.symm⟩

end Running

/-- The call of thread `i` and the phase it has reached, also when it has ended. -/
def position (s : State S World Call Result) (i : Nat) : Option (Call × Phase) :=
  (s.threads[i]?).map fun thread => (thread.call, T.phase s.log i thread.call)

section Position

variable (M : Machine S World Call Result Env) {s : State S World Call Result} {i : Nat} {call : Call}
  {op : S.Op} {next : S.Answer op → Program S Result} {answer : S.Answer op}

theorem position_of_thread {program : Program S Result} (h : s.threads[i]? = some ⟨call, program⟩) :
    T.position s i = some (call, T.phase s.log i call) := by
  rw [position, h]
  rfl

/-- The operation a tracked thread is about to perform is one its phase permits. -/
theorem Tracked.permits (h : Machine.EachThread T.Tracked s)
    (atOp : s.threads[i]? = some ⟨call, .perform op next⟩) :
    (T.protocol call).permits (T.phase s.log i call) op :=
  (h i _ atOp).1

theorem position_resume (hForks : M.forks op = none)
    (atOp : s.threads[i]? = some ⟨call, .perform op next⟩) :
    T.position (M.resume s i call op next answer) =
      Function.update (T.position s) i (some (call,
        (T.protocol call).advance (T.phase s.log i call) op answer)) := by
  have hThreads : (M.resume s i call op next answer).threads =
      s.threads.set i ⟨call, M.settle call (next answer)⟩ := by
    simp [Machine.resume, hForks]
  have hLt : i < s.threads.length := (List.getElem?_eq_some_iff.mp atOp).1
  funext j
  by_cases hji : j = i
  · subst hji
    rw [Function.update_self, position, hThreads, List.getElem?_set_self hLt, Machine.resume_log]
    simp only [Option.map_some, phase_append_self]
  · have hPhase (call' : Call) : T.phase (M.resume s i call op next answer).log j call' = T.phase s.log j call' :=
      phase_append_other T (Ne.symm hji)
    rw [Function.update_of_ne hji, position, position, hThreads, List.getElem?_set_ne (Ne.symm hji)]
    simp only [hPhase]

theorem position_meet {j : Nat} {receiver : Call} {receive : S.Op} {received : S.Answer receive → Program S Result}
    (answer' : S.Answer receive) (hForks : M.forks op = none) (hForks' : M.forks receive = none) (apart : i ≠ j)
    (atOp : s.threads[i]? = some ⟨call, .perform op next⟩)
    (waits : (M.resume s i call op next answer).threads[j]? = some ⟨receiver, .perform receive received⟩) :
    T.position (M.resume (M.resume s i call op next answer) j receiver receive received answer') =
      Function.update (Function.update (T.position s) i
          (some (call, (T.protocol call).advance (T.phase s.log i call) op answer))) j
        (some (receiver, (T.protocol receiver).advance (T.phase s.log j receiver) receive answer')) := by
  have hPhase : T.phase (M.resume s i call op next answer).log j receiver = T.phase s.log j receiver :=
    phase_append_other T apart
  rw [T.position_resume M hForks' waits, T.position_resume M hForks atOp, hPhase]

theorem position_invoke (hLogged : Machine.Logged s) :
    T.position { s with threads := s.threads ++ [M.spawn call] } =
      Function.update (T.position s) s.threads.length (some (call, T.initial call)) := by
  funext j
  by_cases hLast : j = s.threads.length
  · subst hLast
    rw [Function.update_self, position, List.getElem?_concat_length, Option.map_some, Machine.spawn,
      Tracking.phase, phaseOf_fresh hLogged.fresh]
  · rw [Function.update_of_ne hLast, position, position]
    rcases Nat.lt_or_gt_of_ne hLast with hLt | hGt
    · rw [List.getElem?_append_left hLt]
    · rw [List.getElem?_eq_none (by rw [List.length_append]; exact hGt), List.getElem?_eq_none (Nat.le_of_lt hGt)]

end Position

/-- The world and the phase of every thread. -/
def EachPhase (holds : World → Call → Phase → Prop) (s : State S World Call Result) : Prop :=
  ∀ (i : Nat) (thread : Thread S Call Result), s.threads[i]? = some thread →
    holds s.world thread.call (T.phase s.log i thread.call)

/-- The rule for threads that interfere: what the own operations of a thread establish, and
what is stable under everything that others can make of the world, holds in every phase. -/
theorem eachPhase_step (M : Machine S World Call Result Env) {holds : World → Call → Phase → Prop}
    {sound : World → Prop} {later : World → World → Prop}
    (hInitial : ∀ w call, holds w call (T.initial call))
    (hStable : ∀ w w' call phase, later w w' → holds w call phase → holds w' call phase)
    (hOwn : ∀ i op fail w answer w' call phase, M.exec i op fail w = some (answer, w') → sound w →
      (T.protocol call).permits phase op → holds w call phase →
        holds w' call ((T.protocol call).advance phase op answer))
    (hMeet : ∀ send receive answers w call phase, M.meet send receive = some answers → holds w call phase →
      holds w call ((T.protocol call).advance phase send answers.1) ∧
        holds w call ((T.protocol call).advance phase receive answers.2))
    (hExec : ∀ i op fail w answer w', M.exec i op fail w = some (answer, w') → later w w')
    (hDisturb : ∀ env w w', M.disturb env w = some w' → later w w')
    {s t : State S World Call Result} {action : Action Call Env} (hLogged : Machine.Logged s)
    (hTracked : Machine.EachThread T.Tracked s) (hSound : sound s.world) (h : T.EachPhase holds s)
    (hStep : M.step s action = some t) : T.EachPhase holds t := by
  have resumed {s : State S World Call Result} (hLogged : Machine.Logged s) {i : Nat} {call : Call} {op : S.Op}
      {next : S.Answer op → Program S Result} {answer : S.Answer op}
      (atOp : s.threads[i]? = some ⟨call, .perform op next⟩)
      (hOthers : ∀ j thread, j ≠ i → s.threads[j]? = some thread →
        holds s.world thread.call (T.phase s.log j thread.call))
      (hSelf : holds s.world call ((T.protocol call).advance (T.phase s.log i call) op answer)) :
      T.EachPhase holds (M.resume s i call op next answer) := by
    intro j thread hj
    rcases M.resume_threads hj with ⟨rfl, rfl⟩ | ⟨hji, hOld⟩ | ⟨rfl, child, hFork, rfl⟩
    · rw [Machine.resume_log, phase_append_self]
      exact hSelf
    · rw [Machine.resume_log, phase_append_other T (Ne.symm hji)]
      exact hOthers j thread hji hOld
    · have hApart : i ≠ s.threads.length := Nat.ne_of_lt (List.getElem?_eq_some_iff.mp atOp).1
      rw [Machine.resume_log, phase_append_other T hApart, Tracking.phase, phaseOf_fresh hLogged.fresh]
      exact hInitial _ child
  cases M.stepCase_of_step hStep with
  | invoke call =>
      intro j thread hj
      rcases M.invoke_threads.mp hj with hOld | ⟨rfl, rfl⟩
      · exact h j thread hOld
      · have hFresh : T.phase s.log s.threads.length call = T.initial call := phaseOf_fresh hLogged.fresh
        rw [Machine.spawn, hFresh]
        exact hInitial s.world call
  | @step i fail call op next answer world atOp answered =>
      have hPermits := Tracked.permits T hTracked atOp
      refine resumed (s := { s with world := world }) hLogged atOp (fun j thread _ hj => ?_) ?_
      · exact hStable _ _ _ _ (hExec _ _ _ _ _ _ answered) (h j thread hj)
      · exact hOwn _ _ _ _ _ _ _ _ answered hSound hPermits (h _ _ atOp)
  | @meet i j sender receiver send receive sent received answers atSend atReceive apart met waits =>
      have hSent : T.EachPhase holds (M.resume s i sender send sent answers.1) :=
        resumed hLogged atSend (fun k thread _ hk => h k thread hk) (hMeet _ _ _ _ _ _ met (h i _ atSend)).1
      refine resumed (Machine.Logged.resume M hLogged atSend _) waits (fun k thread _ hk => hSent k thread hk) ?_
      exact (hMeet _ _ _ _ _ _ met (hSent j _ waits)).2
  | disturb happens => exact fun j thread hj => hStable _ _ _ _ (hDisturb _ _ _ happens) (h j thread hj)

end Tracking
end Process
