import SwarmAutoscaler.Process.Program
import SwarmAutoscaler.Process.Run

/-! Threads running programs over one shared world. A step performs one operation
of one thread, lets a sender and a receiver meet on a synchronous channel, starts a
new thread, or lets the environment act. The log records every answered operation in
order; no operation reads it. -/
namespace Process

/-- A goroutine: the call it runs, and what is left of its program. -/
structure Thread (S : Signature) (Call Result : Type) where
  call : Call
  program : Program S Result

/-- One answered operation of one thread, with the result if the thread's code ended there. -/
structure Event (S : Signature) (Result : Type) where
  thread : Nat
  op : S.Op
  answer : S.Answer op
  result : Option Result

/-- The code of every kind of thread and the meaning of the operations. `exec` gets
the number of the performing thread and whether a fallible operation fails; it
answers nothing while the operation blocks. -/
structure Machine (S : Signature) (World Call Result Env : Type) where
  body : Call → Program S Result
  again : Call → Result → Option (Program S Result)
  forks : S.Op → Option Call
  exec : Nat → (op : S.Op) → Bool → World → Option (S.Answer op × World)
  meet : (send receive : S.Op) → Option (S.Answer send × S.Answer receive)
  disturb : Env → World → Option World

/-- The shared world, the threads in the order in which they were started, and the
operations so far. -/
structure State (S : Signature) (World Call Result : Type) where
  world : World
  threads : List (Thread S Call Result)
  log : List (Event S Result) := []

/-- The choices of a scheduler: start a call, let one thread perform its next operation and
say whether it fails, let two threads meet, or let something happen outside. -/
inductive Action (Call Env : Type) where
  | invoke (call : Call)
  | step (thread : Nat) (fail : Bool)
  | meet (sender receiver : Nat)
  | disturb (env : Env)

/-- The result of a program that has ended. -/
def Program.result {S : Signature} {Result : Type} : Program S Result → Option Result
  | .done result => some result
  | .perform _ _ => none

namespace Machine

variable {S : Signature} {World Call Result Env : Type} (M : Machine S World Call Result Env)

/-- A thread whose code is a loop starts over when the code of one turn has ended. -/
def settle (call : Call) : Program S Result → Program S Result
  | .done result => (M.again call result).getD (.done result)
  | .perform op next => .perform op next

@[simp] theorem settle_perform (call : Call) (op : S.Op) (next : S.Answer op → Program S Result) :
    M.settle call (.perform op next) = .perform op next := rfl

/-- The code of a thread that is not a loop is left as it is. -/
theorem settle_eq {call : Call} (h : ∀ result, M.again call result = none)
    (program : Program S Result) : M.settle call program = program := by
  cases program with
  | done result => simp [settle, h]
  | perform op next => rfl

theorem settle_of_reaches {answers : (op : S.Op) → S.Answer op → Prop} {target : S.Op → Prop}
    {call : Call} {program : Program S Result} (h : program.Reaches answers target) :
    M.settle call program = program := by
  cases program with
  | done result => exact h.elim
  | perform op next => rfl

/-- A thread at the start of its call. -/
def spawn (call : Call) : Thread S Call Result := ⟨call, M.body call⟩

/-- Thread `i` of the state gets the answer to the operation it was about to perform. -/
def resume (s : State S World Call Result) (i : Nat) (call : Call) (op : S.Op)
    (next : S.Answer op → Program S Result) (answer : S.Answer op) : State S World Call Result :=
  { s with
    threads := s.threads.set i ⟨call, M.settle call (next answer)⟩ ++
      (M.forks op).toList.map M.spawn
    log := s.log ++ [⟨i, op, answer, (next answer).result⟩] }

/-- One choice of the scheduler on a state; there is none when the thread cannot perform its
operation. -/
def step (s : State S World Call Result) : Action Call Env → Option (State S World Call Result)
  | .invoke call => some { s with threads := s.threads ++ [M.spawn call] }
  | .step i fail =>
      match s.threads[i]? with
      | some ⟨call, .perform op next⟩ =>
          (M.exec i op fail s.world).map fun result =>
            M.resume { s with world := result.2 } i call op next result.1
      | _ => none
  | .meet i j =>
      match s.threads[i]?, s.threads[j]? with
      | some ⟨sender, .perform send sent⟩, some ⟨receiver, .perform receive received⟩ =>
          if i = j then none
          else (M.meet send receive).map fun answers =>
            M.resume (M.resume s i sender send sent answers.1) j receiver receive received answers.2
      | _, _ => none
  | .disturb env => (M.disturb env s.world).map fun world => { s with world := world }

/-- What one step can do. Every invariant of a machine is derived from these four cases;
`waits` says that the receiver of a channel is still there when the sender has moved on. -/
inductive StepCase (s : State S World Call Result) : Action Call Env →
    State S World Call Result → Prop where
  | invoke (call : Call) : StepCase s (.invoke call) { s with threads := s.threads ++ [M.spawn call] }
  | step {i : Nat} {fail : Bool} {call : Call} {op : S.Op} {next : S.Answer op → Program S Result}
      {answer : S.Answer op} {world : World}
      (atOp : s.threads[i]? = some ⟨call, .perform op next⟩)
      (answered : M.exec i op fail s.world = some (answer, world)) :
      StepCase s (.step i fail) (M.resume { s with world := world } i call op next answer)
  | meet {i j : Nat} {sender receiver : Call} {send receive : S.Op}
      {sent : S.Answer send → Program S Result} {received : S.Answer receive → Program S Result}
      {answers : S.Answer send × S.Answer receive}
      (atSend : s.threads[i]? = some ⟨sender, .perform send sent⟩)
      (atReceive : s.threads[j]? = some ⟨receiver, .perform receive received⟩)
      (apart : i ≠ j) (met : M.meet send receive = some answers)
      (waits : (M.resume s i sender send sent answers.1).threads[j]? =
        some ⟨receiver, .perform receive received⟩) :
      StepCase s (.meet i j)
        (M.resume (M.resume s i sender send sent answers.1) j receiver receive received answers.2)
  | disturb {env : Env} {world : World} (happens : M.disturb env s.world = some world) :
      StepCase s (.disturb env) { s with world := world }

theorem step_of_exec {s : State S World Call Result} {i : Nat} {fail : Bool} {call : Call}
    {op : S.Op} {next : S.Answer op → Program S Result} {answer : S.Answer op} {world : World}
    (atOp : s.threads[i]? = some ⟨call, .perform op next⟩)
    (answered : M.exec i op fail s.world = some (answer, world)) :
    M.step s (.step i fail) = some (M.resume { s with world := world } i call op next answer) := by
  simp [step, atOp, answered]

section Resume

variable {s : State S World Call Result} {i j : Nat} {call : Call} {op : S.Op}
  {next : S.Answer op → Program S Result} {answer : S.Answer op} {thread : Thread S Call Result}

@[simp] theorem resume_world : (M.resume s i call op next answer).world = s.world := rfl

@[simp] theorem resume_log : (M.resume s i call op next answer).log =
    s.log ++ [⟨i, op, answer, (next answer).result⟩] := rfl

/-- An answer to a thread that is no loop, for an operation that starts no thread. -/
theorem resume_plain (hAgain : ∀ result, M.again call result = none) (hForks : M.forks op = none) :
    M.resume s i call op next answer =
      ⟨s.world, s.threads.set i ⟨call, next answer⟩, s.log ++ [⟨i, op, answer, (next answer).result⟩]⟩ := by
  rw [resume, M.settle_eq hAgain, hForks, Option.toList_none, List.map_nil, List.append_nil]

theorem resume_self (h : i < s.threads.length) :
    (M.resume s i call op next answer).threads[i]? =
      some ⟨call, M.settle call (next answer)⟩ := by
  simp [resume, List.getElem?_append_left, h]

theorem resume_other (h : s.threads[j]? = some thread) (hne : j ≠ i) :
    (M.resume s i call op next answer).threads[j]? = some thread := by
  have hlt : j < s.threads.length := (List.getElem?_eq_some_iff.mp h).1
  rw [resume, List.getElem?_append_left (by simpa using hlt),
    List.getElem?_set_ne (Ne.symm hne), h]

/-- Where a thread of the resumed state comes from: it is the resumed one, one that
was not touched, or the one the operation started. -/
theorem resume_threads (h : (M.resume s i call op next answer).threads[j]? = some thread) :
    (j = i ∧ thread = ⟨call, M.settle call (next answer)⟩) ∨
      (j ≠ i ∧ s.threads[j]? = some thread) ∨
      (j = s.threads.length ∧ ∃ child, M.forks op = some child ∧ thread = M.spawn child) := by
  simp only [resume, List.getElem?_append, List.length_set] at h
  split at h
  · next hlt =>
      by_cases hji : j = i
      · subst hji
        rw [List.getElem?_set_self hlt] at h
        exact Or.inl ⟨rfl, (Option.some.inj h).symm⟩
      · rw [List.getElem?_set_ne (Ne.symm hji)] at h
        exact Or.inr (Or.inl ⟨hji, h⟩)
  · next hge =>
      cases hFork : M.forks op with
      | none => simp [hFork] at h
      | some child =>
          simp only [hFork, Option.toList_some, List.map_cons, List.map_nil] at h
          obtain ⟨hZero, hThread⟩ := List.getElem?_eq_some_iff.mp h
          have hIndex : j - s.threads.length = 0 := by simpa using hZero
          refine Or.inr (Or.inr ⟨by omega, child, rfl, ?_⟩)
          simp only [hIndex, List.getElem_cons_zero] at hThread
          exact hThread.symm

theorem invoke_threads {started : Call} :
    (s.threads ++ [M.spawn started])[j]? = some thread ↔
      s.threads[j]? = some thread ∨ (j = s.threads.length ∧ thread = M.spawn started) := by
  rcases Nat.lt_trichotomy j s.threads.length with hlt | rfl | hgt
  · simp [List.getElem?_append_left hlt, Nat.ne_of_lt hlt]
  · simp [eq_comm]
  · have hEnd : (s.threads ++ [M.spawn started])[j]? = none := by simp; omega
    simp [hEnd, List.getElem?_eq_none (Nat.le_of_lt hgt), Nat.ne_of_gt hgt]

/-- Some thread keeps a property through the step if the resumed one keeps it. -/
theorem exists_resume {property : Thread S Call Result → Prop}
    (atOp : s.threads[i]? = some ⟨call, .perform op next⟩)
    (hKeep : property ⟨call, .perform op next⟩ → property ⟨call, M.settle call (next answer)⟩)
    (h : ∃ thread ∈ s.threads, property thread) :
    ∃ thread ∈ (M.resume s i call op next answer).threads, property thread := by
  obtain ⟨thread, hMem, hThread⟩ := h
  obtain ⟨j, hj⟩ := List.mem_iff_getElem?.mp hMem
  by_cases hji : j = i
  · subst hji
    rw [atOp] at hj
    cases hj
    have hSelf : (M.resume s j call op next answer).threads[j]? = _ :=
      M.resume_self (List.getElem?_eq_some_iff.mp atOp).1
    exact ⟨_, List.mem_of_getElem? hSelf, hKeep hThread⟩
  · exact ⟨thread, List.mem_of_getElem? (M.resume_other hj hji), hThread⟩

theorem length_le_resume : s.threads.length ≤ (M.resume s i call op next answer).threads.length := by
  simp [resume]

end Resume

theorem stepCase_of_step {s t : State S World Call Result} {action : Action Call Env}
    (h : M.step s action = some t) : M.StepCase s action t := by
  cases action with
  | invoke call =>
      cases h
      exact .invoke call
  | step i fail =>
      simp only [step] at h
      split at h
      · next call op next atOp =>
          obtain ⟨⟨answer, world⟩, answered, rfl⟩ := Option.map_eq_some_iff.mp h
          exact .step atOp answered
      · cases h
  | meet i j =>
      simp only [step] at h
      split at h
      · next sender send sent receiver receive received atSend atReceive =>
          split at h
          · cases h
          · next apart =>
              obtain ⟨answers, met, rfl⟩ := Option.map_eq_some_iff.mp h
              exact .meet atSend atReceive apart met (M.resume_other atReceive (Ne.symm apart))
      · cases h
  | disturb env =>
      obtain ⟨world, happens, rfl⟩ := Option.map_eq_some_iff.mp h
      exact .disturb happens

/-- A property of each thread: its number, its call and the rest of its code, with the
operations answered so far. -/
def EachThread (property : List (Event S Result) → Nat → Call → Program S Result → Prop)
    (s : State S World Call Result) : Prop :=
  ∀ (i : Nat) (thread : Thread S Call Result), s.threads[i]? = some thread →
    property s.log i thread.call thread.program

/-- A property of each thread on its own: its call and the rest of its code. -/
def AllThreads (property : Call → Program S Result → Prop) : State S World Call Result → Prop :=
  EachThread fun _ _ => property

/-- Only calls of the given kind are started from outside. -/
def Admits (allowed : Call → Prop) : State S World Call Result → Action Call Env → Prop
  | _, .invoke call => allowed call
  | _, _ => True

instance {allowed : Call → Prop} [DecidablePred allowed] (s : State S World Call Result) :
    ∀ action : Action Call Env, Decidable (Admits allowed s action)
  | .invoke call => inferInstanceAs (Decidable (allowed call))
  | .step _ _ | .meet _ _ | .disturb _ => isTrue trivial

/-- The operation that a thread performs in this step, with its answer. -/
def reply (s : State S World Call Result) : Action Call Env → Option ((op : S.Op) × S.Answer op)
  | .step i fail =>
      match s.threads[i]? with
      | some ⟨_, .perform op _⟩ => (M.exec i op fail s.world).map fun result => ⟨op, result.1⟩
      | _ => none
  | _ => none

theorem reply_of_exec {s : State S World Call Result} {i : Nat} {fail : Bool} {call : Call}
    {op : S.Op} {next : S.Answer op → Program S Result} {answer : S.Answer op} {world : World}
    (atOp : s.threads[i]? = some ⟨call, .perform op next⟩)
    (answered : M.exec i op fail s.world = some (answer, world)) :
    M.reply s (.step i fail : Action Call Env) = some ⟨op, answer⟩ := by
  simp [reply, atOp, answered]

/-- The operation a thread performs in this step is answered as the relation admits. -/
def AnswersWith (answers : (op : S.Op) → S.Answer op → Prop) (s : State S World Call Result)
    (action : Action Call Env) : Prop :=
  ∀ reply ∈ M.reply s action, answers reply.1 reply.2

instance {answers : (op : S.Op) → S.Answer op → Prop} [∀ op answer, Decidable (answers op answer)]
    (s : State S World Call Result) (action : Action Call Env) :
    Decidable (M.AnswersWith answers s action) :=
  inferInstanceAs (Decidable (∀ reply ∈ M.reply s action, answers reply.1 reply.2))

theorem answersWith_of_exec {answers : (op : S.Op) → S.Answer op → Prop}
    {s : State S World Call Result} {action : Action Call Env}
    (h : ∀ i fail call op (next : S.Answer op → Program S Result) answer world,
      action = .step i fail → s.threads[i]? = some ⟨call, .perform op next⟩ →
        M.exec i op fail s.world = some (answer, world) → answers op answer) :
    M.AnswersWith answers s action := by
  intro reply hReply
  cases action with
  | step i fail =>
      simp only [Machine.reply, Option.mem_def] at hReply
      split at hReply
      · next call op next atOp =>
          obtain ⟨⟨answer, world⟩, answered, rfl⟩ := Option.map_eq_some_iff.mp hReply
          exact h i fail call op next answer world rfl atOp answered
      · cases hReply
  | invoke | meet | disturb => cases hReply

/-- The log names threads of the state. -/
def Logged (s : State S World Call Result) : Prop := ∀ event ∈ s.log, event.thread < s.threads.length

theorem logged_of_nil {s : State S World Call Result} (h : s.log = []) : Logged s := by
  intro event hEvent
  rw [h] at hEvent
  cases hEvent

theorem Logged.fresh {s : State S World Call Result} (h : Logged s) :
    ∀ event ∈ s.log, event.thread ≠ s.threads.length :=
  fun event hEvent => Nat.ne_of_lt (h event hEvent)

theorem Logged.resume {s : State S World Call Result} (h : Logged s) {i : Nat} {call : Call}
    {op : S.Op} {next : S.Answer op → Program S Result}
    (atOp : s.threads[i]? = some ⟨call, .perform op next⟩) (answer : S.Answer op) :
    Logged (M.resume s i call op next answer) := by
  intro event hEvent
  have hLength : s.threads.length ≤ (M.resume s i call op next answer).threads.length :=
    M.length_le_resume
  rcases List.mem_append.mp hEvent with hOld | hNew
  · exact Nat.lt_of_lt_of_le (h event hOld) hLength
  · rw [List.mem_singleton.mp hNew]
    exact Nat.lt_of_lt_of_le (List.getElem?_eq_some_iff.mp atOp).1 hLength

theorem logged_step {s t : State S World Call Result} {action : Action Call Env} (h : Logged s)
    (hStep : M.step s action = some t) : Logged t := by
  cases M.stepCase_of_step hStep with
  | invoke call => exact fun event hEvent => Nat.lt_of_lt_of_le (h event hEvent) (by simp)
  | step atOp answered => exact Logged.resume M (s := { s with world := _ }) h atOp _
  | meet atSend atReceive apart met waits => exact Logged.resume M (Logged.resume M h atSend _) waits _
  | disturb happens => exact h

/-- A thread property that the code of every started call has, that every answer keeps,
and that events of other threads keep, holds of all threads after every step. Answers
are those that the given relation admits; `hExec` says that the step at hand gave such
answers. -/
theorem eachThread_step {property : List (Event S Result) → Nat → Call → Program S Result → Prop}
    {answers : (op : S.Op) → S.Answer op → Prop} {allowed : Call → Prop}
    (hBody : ∀ log i call, (∀ event ∈ log, event.thread ≠ i) → allowed call →
      property log i call (M.body call))
    (hForks : ∀ log i call op next child, property log i call (.perform op next) →
      M.forks op = some child → ∀ log' j, (∀ event ∈ log', event.thread ≠ j) →
        property log' j child (M.body child))
    (hNext : ∀ log i call op (next : S.Answer op → Program S Result) answer, answers op answer →
      property log i call (.perform op next) →
        property (log ++ [⟨i, op, answer, (next answer).result⟩]) i call (M.settle call (next answer)))
    (hOther : ∀ log event i call program, event.thread ≠ i → property log i call program →
      property (log ++ [event]) i call program)
    {s t : State S World Call Result} {action : Action Call Env} (hLogged : Logged s)
    (hExec : M.AnswersWith answers s action)
    (hMeet : ∀ send receive found, M.meet send receive = some found →
      answers send found.1 ∧ answers receive found.2)
    (hAdmits : Admits allowed s action) (h : EachThread property s)
    (hStep : M.step s action = some t) : EachThread property t := by
  have resumed {s : State S World Call Result} (hLogged : Logged s) (h : EachThread property s)
      {i : Nat} {call : Call} {op : S.Op} {next : S.Answer op → Program S Result}
      {answer : S.Answer op} (hAnswer : answers op answer)
      (atOp : s.threads[i]? = some ⟨call, .perform op next⟩) :
      EachThread property (M.resume s i call op next answer) := by
    intro j thread hj
    rcases M.resume_threads hj with ⟨rfl, rfl⟩ | ⟨hji, hOld⟩ | ⟨rfl, child, hFork, rfl⟩
    · exact hNext _ _ call op next answer hAnswer (h _ _ atOp)
    · exact hOther _ _ _ _ _ (Ne.symm hji) (h j thread hOld)
    · refine hForks _ _ call op next child (h _ _ atOp) hFork _ _ fun event hEvent => ?_
      rcases List.mem_append.mp hEvent with hOld | hNew
      · exact hLogged.fresh event hOld
      · rw [List.mem_singleton.mp hNew]
        exact Nat.ne_of_lt (List.getElem?_eq_some_iff.mp atOp).1
  cases M.stepCase_of_step hStep with
  | invoke call =>
      intro j thread hj
      rcases M.invoke_threads.mp hj with hOld | ⟨rfl, rfl⟩
      · exact h j thread hOld
      · exact hBody _ _ call hLogged.fresh hAdmits
  | step atOp answered =>
      exact resumed (s := { s with world := _ }) hLogged h (hExec _ (M.reply_of_exec atOp answered)) atOp
  | meet atSend atReceive apart met waits =>
      obtain ⟨hSent, hReceived⟩ := hMeet _ _ _ met
      exact resumed (Logged.resume M hLogged atSend _) (resumed hLogged h hSent atSend) hReceived waits
  | disturb happens => exact h

theorem allThreads_step {property : Call → Program S Result → Prop}
    {answers : (op : S.Op) → S.Answer op → Prop} {allowed : Call → Prop}
    (hBody : ∀ call, allowed call → property call (M.body call))
    (hForks : ∀ call op next child, property call (.perform op next) → M.forks op = some child →
      property child (M.body child))
    (hNext : ∀ call op (next : S.Answer op → Program S Result) answer, answers op answer →
      property call (.perform op next) → property call (M.settle call (next answer)))
    {s t : State S World Call Result} {action : Action Call Env} (hLogged : Logged s)
    (hExec : M.AnswersWith answers s action)
    (hMeet : ∀ send receive found, M.meet send receive = some found →
      answers send found.1 ∧ answers receive found.2)
    (hAdmits : Admits allowed s action) (h : AllThreads property s)
    (hStep : M.step s action = some t) : AllThreads property t :=
  M.eachThread_step (fun _ _ call _ => hBody call)
    (fun _ _ call op next child hCall hFork _ _ _ => hForks call op next child hCall hFork)
    (fun _ _ => hNext) (fun _ _ _ _ _ _ => id) hLogged hExec hMeet hAdmits h hStep

/-- The same for a property that every answer keeps. -/
theorem allThreads_step_any {property : Call → Program S Result → Prop} {allowed : Call → Prop}
    (hBody : ∀ call, allowed call → property call (M.body call))
    (hForks : ∀ call op next child, property call (.perform op next) → M.forks op = some child →
      property child (M.body child))
    (hNext : ∀ call op (next : S.Answer op → Program S Result) answer,
      property call (.perform op next) → property call (M.settle call (next answer)))
    {s t : State S World Call Result} {action : Action Call Env} (hLogged : Logged s)
    (hAdmits : Admits allowed s action) (h : AllThreads property s)
    (hStep : M.step s action = some t) : AllThreads property t :=
  have hExec : M.AnswersWith (fun _ _ => True) s action := fun _ _ => trivial
  M.allThreads_step hBody hForks (fun call op next answer _ => hNext call op next answer) hLogged hExec
    (fun _ _ _ _ => ⟨trivial, trivial⟩) hAdmits h hStep

end Machine
end Process
