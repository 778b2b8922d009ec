import SwarmAutoscaler.Process.Program

/-! Code that runs alone. Nothing happens between two of its operations, so it acts like a
function on a state. Which of the calls that can fail do fail is given in advance, in the
order in which they are made. -/
namespace Process

/-- The meaning of the operations for code that runs alone; an operation without an answer
blocks. -/
structure Solo (S : Signature) (State : Type) where
  fallible : S.Op → Bool
  exec : (op : S.Op) → Bool → State → Option (S.Answer op × State)

/-- How code that ran alone has ended, after how many calls that could fail. -/
structure Outcome (State Result : Type) where
  result : Result
  calls : Nat
  state : State

namespace Program

variable {S : Signature} {State Result Value : Type} (solo : Solo S State) (fails : Nat → Bool)

/-- The outcome of a program that runs alone, where `fails` says which calls fail; there is
none when an operation does not return. -/
def eval : Program S Result → Nat → State → Option (Outcome State Result)
  | .done result, calls, state => some ⟨result, calls, state⟩
  | .perform op next, calls, state =>
      if solo.fallible op then
        (solo.exec op (fails calls) state).bind fun answered => (next answered.1).eval (calls + 1) answered.2
      else
        (solo.exec op false state).bind fun answered => (next answered.1).eval calls answered.2

/-- The operations performed on the way. -/
def performed : Program S Result → Nat → State → List S.Op
  | .done _, _, _ => []
  | .perform op next, calls, state =>
      if solo.fallible op then
        op :: ((solo.exec op (fails calls) state).map fun answered =>
          (next answered.1).performed (calls + 1) answered.2).getD []
      else
        op :: ((solo.exec op false state).map fun answered => (next answered.1).performed calls answered.2).getD []

/-- The operations performed and the result, for given answers. An operation that comes
again is answered as before. -/
def replay (answers : (op : S.Op) → S.Answer op) : Program S Result → List S.Op × Result
  | .done result => ([], result)
  | .perform op next => (op :: ((next (answers op)).replay answers).1, ((next (answers op)).replay answers).2)

@[simp] theorem replay_done (answers : (op : S.Op) → S.Answer op) (result : Result) :
    (done result : Program S Result).replay answers = ([], result) := rfl

theorem replay_perform {answers : (op : S.Op) → S.Answer op} {op : S.Op} {next : S.Answer op → Program S Result} :
    (perform op next).replay answers =
      (op :: ((next (answers op)).replay answers).1, ((next (answers op)).replay answers).2) := rfl

variable {solo fails} {calls : Nat} {state : State}

@[simp] theorem eval_done (result : Result) :
    (done result : Program S Result).eval solo fails calls state = some ⟨result, calls, state⟩ := rfl

/-- An operation that cannot fail. -/
theorem eval_perform {op : S.Op} {next : S.Answer op → Program S Result} (h : solo.fallible op = false) :
    (perform op next).eval solo fails calls state =
      (solo.exec op false state).bind fun answered => (next answered.1).eval solo fails calls answered.2 := by
  rw [eval, h]
  rfl

/-- An operation that fails if its turn says so. -/
theorem eval_call {op : S.Op} {next : S.Answer op → Program S Result} (h : solo.fallible op = true) :
    (perform op next).eval solo fails calls state =
      (solo.exec op (fails calls) state).bind fun answered =>
        (next answered.1).eval solo fails (calls + 1) answered.2 := by
  rw [eval, h]
  rfl

/-- The second part starts where the first has ended. -/
theorem eval_bind (program : Program S Value) (rest : Value → Program S Result) :
    (program.bind rest).eval solo fails calls state =
      (program.eval solo fails calls state).bind fun first =>
        (rest first.result).eval solo fails first.calls first.state := by
  induction program generalizing calls state with
  | done value => rfl
  | perform op next ih =>
      rw [perform_bind, eval, eval]
      split
      · rw [Option.bind_assoc]
        simp only [ih]
      · rw [Option.bind_assoc]
        simp only [ih]

/-- The program comes to no fault: an attempt of it ends as the program does. -/
def Unfaulted (program : Program S Value) (trap : S.Op → Option S.Op) (solo : Solo S State) (fails : Nat → Bool)
    (calls : Nat) (state : State) : Prop :=
  (program.attempt trap).eval solo fails calls state = (program.eval solo fails calls state).map fun outcome =>
    ⟨some outcome.result, outcome.calls, outcome.state⟩

variable {trap : S.Op → Option S.Op}

theorem unfaulted_done (value : Value) :
    (done value : Program S Value).Unfaulted trap solo fails calls state := rfl

/-- An operation that is no fault, whichever answer it gets. -/
theorem unfaulted_perform {op : S.Op} {next : S.Answer op → Program S Value} (hTrap : trap op = none)
    (h : ∀ fail calls answer state', solo.exec op fail state = some (answer, state') →
      (next answer).Unfaulted trap solo fails calls state') :
    (perform op next).Unfaulted trap solo fails calls state := by
  rw [Unfaulted, attempt_perform hTrap, eval, eval]
  split
  · cases hExec : solo.exec op (fails calls) state with
    | none => rfl
    | some answered => exact h _ _ _ _ hExec
  · cases hExec : solo.exec op false state with
    | none => rfl
    | some answered => exact h _ _ _ _ hExec

theorem unfaulted_bind {program : Program S Value} {rest : Value → Program S Result}
    (h : program.Unfaulted trap solo fails calls state)
    (hRest : ∀ value calls state, (rest value).Unfaulted trap solo fails calls state) :
    (program.bind rest).Unfaulted trap solo fails calls state := by
  rw [Unfaulted, attempt_bind, eval_bind, h, eval_bind]
  cases program.eval solo fails calls state with
  | none => rfl
  | some first => exact hRest first.result first.calls first.state

/-- Calls are counted from anywhere. -/
theorem eval_shift (program : Program S Result) (offset : Nat) :
    program.eval solo fails (calls + offset) state =
      (program.eval solo (fun call => fails (call + offset)) calls state).map fun outcome =>
        { outcome with calls := outcome.calls + offset } := by
  induction program generalizing calls state with
  | done result => rfl
  | perform op next ih =>
      rw [eval, eval]
      split
      · rw [Option.map_bind, Nat.add_right_comm]
        simp only [ih]
        rfl
      · rw [Option.map_bind]
        simp only [ih]
        rfl

/-- What the code may use at all, it uses here. -/
theorem performed_of_uses {allowed : S.Op → Prop} {program : Program S Result}
    (h : program.Uses (fun _ _ => True) allowed) (calls : Nat) (state : State) :
    ∀ op ∈ program.performed solo fails calls state, allowed op := by
  induction program generalizing calls state with
  | done result => exact fun _ hMem => absurd hMem List.not_mem_nil
  | perform op next ih =>
      intro other hMem
      rw [performed] at hMem
      split at hMem
      · rcases List.mem_cons.mp hMem with rfl | hRest
        · exact h.1
        · cases hExec : solo.exec op (fails calls) state with
          | none => simp [hExec] at hRest
          | some answered =>
              rw [hExec] at hRest
              exact ih answered.1 (h.2 answered.1 trivial) _ _ other hRest
      · rcases List.mem_cons.mp hMem with rfl | hRest
        · exact h.1
        · cases hExec : solo.exec op false state with
          | none => simp [hExec] at hRest
          | some answered =>
              rw [hExec] at hRest
              exact ih answered.1 (h.2 answered.1 trivial) _ _ other hRest

end Program
end Process
