import Mathlib.Algebra.Order.Ring.Nat
import Mathlib.Data.List.Basic

/-! Sequential code over a signature of atomic operations. A program performs one
operation at a time and continues with the answer, so a scheduler may interleave
other code between any two operations. -/
namespace Process

/-- The atomic operations of some code, each with the type of its answers. -/
structure Signature where
  Op : Type
  Answer : Op → Type

/-- Code as a tree: it has ended, or it performs an operation and goes on according to the
answer. -/
inductive Program (S : Signature) (Result : Type) where
  | done (result : Result)
  | perform (op : S.Op) (next : S.Answer op → Program S Result)

namespace Program

variable {S : Signature} {Result Value : Type}

/-- One program after another, which sees the result of the first. -/
def bind (program : Program S Value) (rest : Value → Program S Result) : Program S Result :=
  match program with
  | .done value => rest value
  | .perform op next => .perform op fun answer => (next answer).bind rest

instance : Monad (Program S) where
  pure := done
  bind := bind

@[simp] theorem pure_eq (value : Value) : (pure value : Program S Value) = .done value := rfl

@[simp] theorem bind_eq (program : Program S Value) (rest : Value → Program S Result) :
    program >>= rest = program.bind rest := rfl

@[simp] theorem done_bind (value : Value) (rest : Value → Program S Result) :
    (Program.done value).bind rest = rest value := rfl

@[simp] theorem perform_bind (op : S.Op) (next : S.Answer op → Program S Value)
    (rest : Value → Program S Result) :
    (Program.perform op next).bind rest = .perform op fun answer => (next answer).bind rest := rfl

/-- A program that performs one operation and returns its answer. -/
def call (op : S.Op) : Program S (S.Answer op) := .perform op .done

theorem bind_congr {program : Program S Value} {rest rest' : Value → Program S Result}
    (h : ∀ value, rest value = rest' value) : program.bind rest = program.bind rest' := by
  rw [funext h]

theorem bind_assoc {Last : Type} (program : Program S Value) (rest : Value → Program S Result)
    (last : Result → Program S Last) :
    (program.bind rest).bind last = program.bind fun value => (rest value).bind last := by
  induction program with
  | done value => rfl
  | perform op next ih =>
      rw [perform_bind, perform_bind, perform_bind]
      congr 1
      funext answer
      exact ih answer

@[simp] theorem call_bind (op : S.Op) (rest : S.Answer op → Program S Result) :
    (call op).bind rest = .perform op rest := rfl

/-- The operation the program performs next, if it has not ended. -/
def head : Program S Result → Option S.Op
  | .done _ => none
  | .perform op _ => some op

@[simp] theorem head_done (result : Result) : (done result : Program S Result).head = none := rfl

@[simp] theorem head_perform (op : S.Op) (next : S.Answer op → Program S Result) :
    (perform op next).head = some op := rfl

theorem head_eq_some_iff {program : Program S Result} {op : S.Op} :
    program.head = some op ↔ ∃ next, program = .perform op next := by
  cases program with
  | done result => simp
  | perform other next =>
      constructor
      · intro h
        cases h
        exact ⟨next, rfl⟩
      · rintro ⟨rest, h⟩
        cases h
        rfl

/-- The program up to a faulty operation. Where it comes to one, it performs the handler of
the fault instead and ends without a value. -/
def attempt (trap : S.Op → Option S.Op) : Program S Value → Program S (Option Value)
  | .done value => .done (some value)
  | .perform op next =>
      match trap op with
      | some handler => .perform handler fun _ => .done none
      | none => .perform op fun answer => (next answer).attempt trap

theorem attempt_faulty {trap : S.Op → Option S.Op} {op handler : S.Op} {next : S.Answer op → Program S Value}
    (h : trap op = some handler) : (perform op next).attempt trap = .perform handler fun _ => .done none := by
  rw [attempt, h]

theorem attempt_perform {trap : S.Op → Option S.Op} {op : S.Op} {next : S.Answer op → Program S Value}
    (h : trap op = none) :
    (perform op next).attempt trap = .perform op fun answer => (next answer).attempt trap := by
  rw [attempt, h]

/-- The second part is attempted only when the first has ended with a value. -/
theorem attempt_bind (trap : S.Op → Option S.Op) (program : Program S Value) (rest : Value → Program S Result) :
    (program.bind rest).attempt trap = (program.attempt trap).bind fun
      | none => .done none
      | some value => (rest value).attempt trap := by
  induction program with
  | done value => rfl
  | perform op next ih =>
      rw [perform_bind]
      cases hTrap : trap op with
      | some handler =>
          rw [attempt_faulty hTrap, attempt_faulty hTrap]
          rfl
      | none =>
          rw [attempt_perform hTrap, attempt_perform hTrap, perform_bind]
          congr 1
          funext answer
          exact ih answer

/-- A protocol for one program: `phase` is what the program may know from the
answers so far, `permits` what it may do there and how it may end. The program
keeps to the protocol for all answers that `answers` admits. -/
structure Protocol (S : Signature) (Phase Result : Type) where
  permits : Phase → S.Op → Prop
  advance : Phase → (op : S.Op) → S.Answer op → Phase
  ends : Phase → Result → Prop

section Follows

variable {Phase : Type}

/-- The program keeps to the protocol from this phase on. -/
def Follows (protocol : Protocol S Phase Result) (answers : (op : S.Op) → S.Answer op → Prop) :
    Phase → Program S Result → Prop
  | phase, .done result => protocol.ends phase result
  | phase, .perform op next =>
      protocol.permits phase op ∧
        ∀ answer, answers op answer →
          Follows protocol answers (protocol.advance phase op answer) (next answer)

/-- The sequential rule: the first part ends where the second part may start. -/
theorem follows_bind {protocol : Protocol S Phase Result}
    {answers : (op : S.Op) → S.Answer op → Prop} {program : Program S Value}
    {rest : Value → Program S Result} {phase : Phase}
    (h : program.Follows ⟨protocol.permits, protocol.advance,
      fun phase value => (rest value).Follows protocol answers phase⟩ answers phase) :
    (program.bind rest).Follows protocol answers phase := by
  induction program generalizing phase with
  | done value => exact h
  | perform op next ih =>
      exact ⟨h.1, fun answer hAnswer => ih answer (h.2 answer hAnswer)⟩

/-- A program that is attempted keeps to its protocol when the handlers do and what comes
after a fault may start there. -/
theorem follows_attempt {protocol : Protocol S Phase Result} {answers : (op : S.Op) → S.Answer op → Prop}
    {trap : S.Op → Option S.Op} {program : Program S Value} {rest : Option Value → Program S Result}
    {phase : Phase}
    (hTrap : ∀ phase op, ∀ handler ∈ trap op, protocol.permits phase op → protocol.permits phase handler ∧
      ∀ answer, answers handler answer →
        (rest none).Follows protocol answers (protocol.advance phase handler answer))
    (h : program.Follows ⟨protocol.permits, protocol.advance,
      fun phase value => (rest (some value)).Follows protocol answers phase⟩ answers phase) :
    ((program.attempt trap).bind rest).Follows protocol answers phase := by
  induction program generalizing phase with
  | done value => exact h
  | perform op next ih =>
      cases hOp : trap op with
      | some handler =>
          rw [attempt_faulty hOp]
          exact hTrap phase op handler hOp h.1
      | none =>
          rw [attempt_perform hOp]
          exact ⟨h.1, fun answer hAnswer => ih answer (h.2 answer hAnswer)⟩

/-- The protocol that says nothing. -/
def Protocol.free : Protocol S Phase Result := ⟨fun _ _ => True, fun phase _ _ => phase, fun _ _ => True⟩

theorem follows_free {answers : (op : S.Op) → S.Answer op → Prop} {phase : Phase}
    (program : Program S Result) : program.Follows Protocol.free answers phase := by
  induction program with
  | done result => trivial
  | perform op next ih => exact ⟨trivial, fun answer _ => ih answer⟩

/-- A protocol may be read as part of a larger one. -/
theorem Follows.embed {Phase' : Type} {protocol : Protocol S Phase Result}
    {larger : Protocol S Phase' Result} {answers : (op : S.Op) → S.Answer op → Prop}
    {program : Program S Result} {phase : Phase} (part : Phase → Phase')
    (hPermits : ∀ phase op, protocol.permits phase op → larger.permits (part phase) op)
    (hAdvance : ∀ phase op answer, protocol.permits phase op →
      larger.advance (part phase) op answer = part (protocol.advance phase op answer))
    (hEnds : ∀ phase result, protocol.ends phase result → larger.ends (part phase) result)
    (h : program.Follows protocol answers phase) : program.Follows larger answers (part phase) := by
  induction program generalizing phase with
  | done result => exact hEnds phase result h
  | perform op next ih =>
      refine ⟨hPermits phase op h.1, fun answer hAnswer => ?_⟩
      rw [hAdvance phase op answer h.1]
      exact ih answer (h.2 answer hAnswer)

end Follows

/-- Every operation the program can come to perform is allowed. -/
def Uses (answers : (op : S.Op) → S.Answer op → Prop) (allowed : S.Op → Prop) :
    Program S Result → Prop
  | .done _ => True
  | .perform op next => allowed op ∧ ∀ answer, answers op answer → (next answer).Uses answers allowed

/-- Whatever the answers, the program comes to perform a target operation. -/
def Reaches (answers : (op : S.Op) → S.Answer op → Prop) (target : S.Op → Prop) :
    Program S Result → Prop
  | .done _ => False
  | .perform op next => target op ∨ ∀ answer, answers op answer → (next answer).Reaches answers target

variable {answers : (op : S.Op) → S.Answer op → Prop} {allowed target : S.Op → Prop}

theorem uses_bind {program : Program S Value} {rest : Value → Program S Result}
    (hFirst : program.Uses answers allowed) (hRest : ∀ value, (rest value).Uses answers allowed) :
    (program.bind rest).Uses answers allowed := by
  induction program with
  | done value => exact hRest value
  | perform op next ih =>
      exact ⟨hFirst.1, fun answer hAnswer => ih answer (hFirst.2 answer hAnswer)⟩

/-- The attempt performs what the program may perform, and handlers. -/
theorem uses_attempt {trap : S.Op → Option S.Op} {program : Program S Result} (h : program.Uses answers allowed)
    (hTrap : ∀ op, ∀ handler ∈ trap op, allowed op → allowed handler) :
    (program.attempt trap).Uses answers allowed := by
  induction program with
  | done result => trivial
  | perform op next ih =>
      cases hOp : trap op with
      | some handler =>
          rw [attempt_faulty hOp]
          exact ⟨hTrap op handler hOp h.1, fun _ _ => trivial⟩
      | none =>
          rw [attempt_perform hOp]
          exact ⟨h.1, fun answer hAnswer => ih answer (h.2 answer hAnswer)⟩

/-- An attempt does not come to a fault itself. -/
theorem faultless_attempt {trap : S.Op → Option S.Op} (hTrap : ∀ op, ∀ handler ∈ trap op, trap handler = none)
    (program : Program S Result) : (program.attempt trap).Uses answers fun op => trap op = none := by
  induction program with
  | done result => trivial
  | perform op next ih =>
      cases hOp : trap op with
      | some handler =>
          rw [attempt_faulty hOp]
          exact ⟨hTrap op handler hOp, fun _ _ => trivial⟩
      | none =>
          rw [attempt_perform hOp]
          exact ⟨hOp, fun answer _ => ih answer⟩

/-- The attempt of a program without faults is the program. -/
theorem attempt_of_uses {trap : S.Op → Option S.Op} {program : Program S Value}
    (h : program.Uses (fun _ _ => True) fun op => trap op = none) :
    program.attempt trap = program.bind fun value => .done (some value) := by
  induction program with
  | done value => rfl
  | perform op next ih =>
      rw [attempt_perform h.1, perform_bind]
      congr 1
      funext answer
      exact ih answer (h.2 answer trivial)

theorem uses_of_forall (h : ∀ op, allowed op) (program : Program S Result) :
    program.Uses answers allowed := by
  induction program with
  | done result => trivial
  | perform op next ih => exact ⟨h op, fun answer _ => ih answer⟩

/-- A part that only performs operations which the protocol permits in a phase, and which
leave it there, keeps to the protocol in that phase. -/
theorem follows_of_uses {Phase : Type} {protocol : Protocol S Phase Result} {phase : Phase}
    (hPermits : ∀ op, allowed op → protocol.permits phase op)
    (hStay : ∀ op answer, allowed op → protocol.advance phase op answer = phase)
    (hEnds : ∀ result, protocol.ends phase result) {program : Program S Result}
    (h : program.Uses answers allowed) : program.Follows protocol answers phase := by
  induction program with
  | done result => exact hEnds result
  | perform op next ih =>
      have hNext (answer : S.Answer op) (hAnswer : answers op answer) :
          (next answer).Follows protocol answers (protocol.advance phase op answer) := by
        rw [hStay op answer h.1]
        exact ih answer (h.2 answer hAnswer)
      exact ⟨hPermits op h.1, hNext⟩

/-- Whatever the answers, the program can only end with such a result. -/
def Returns (answers : (op : S.Op) → S.Answer op → Prop) (post : Result → Prop) :
    Program S Result → Prop
  | .done result => post result
  | .perform op next => ∀ answer, answers op answer → (next answer).Returns answers post

theorem returns_true (program : Program S Result) : program.Returns answers fun _ => True := by
  induction program with
  | done result => trivial
  | perform op next ih => exact fun answer _ => ih answer

theorem Returns.mono {post weaker : Result → Prop} {program : Program S Result} (h : program.Returns answers post)
    (implies : ∀ result, post result → weaker result) : program.Returns answers weaker := by
  induction program with
  | done result => exact implies result h
  | perform op next ih => exact fun answer hAnswer => ih answer (h answer hAnswer)

theorem returns_bind {first : Value → Prop} {post : Result → Prop} {program : Program S Value}
    {rest : Value → Program S Result} (hFirst : program.Returns answers first)
    (hRest : ∀ value, first value → (rest value).Returns answers post) :
    (program.bind rest).Returns answers post := by
  induction program with
  | done value => exact hRest value hFirst
  | perform op next ih => exact fun answer hAnswer => ih answer (hFirst answer hAnswer)

theorem reaches_bind (post : Value → Prop) {program : Program S Value}
    {rest : Value → Program S Result} (hFirst : program.Returns answers post)
    (hRest : ∀ value, post value → (rest value).Reaches answers target) :
    (program.bind rest).Reaches answers target := by
  induction program with
  | done value => exact hRest value hFirst
  | perform op next ih => exact Or.inr fun answer hAnswer => ih answer (hFirst answer hAnswer)

theorem reaches_bind_left {program : Program S Value} {rest : Value → Program S Result}
    (hFirst : program.Reaches answers target) : (program.bind rest).Reaches answers target := by
  induction program with
  | done value => exact hFirst.elim
  | perform op next ih =>
      rcases hFirst with hTarget | hNext
      · exact Or.inl hTarget
      · exact Or.inr fun answer hAnswer => ih answer (hNext answer hAnswer)

/-- A target is reached all the same where no fault is answered. -/
theorem reaches_attempt {trap : S.Op → Option S.Op} {program : Program S Value}
    {rest : Option Value → Program S Result}
    (h : program.Reaches answers target)
    (hTrap : ∀ op, ∀ handler ∈ trap op, ¬ target op ∧ ∀ answer, ¬ answers handler answer) :
    ((program.attempt trap).bind rest).Reaches answers target := by
  induction program with
  | done value => exact h.elim
  | perform op next ih =>
      cases hOp : trap op with
      | some handler =>
          rw [attempt_faulty hOp]
          exact Or.inr fun answer hAnswer => absurd hAnswer ((hTrap op handler hOp).2 answer)
      | none =>
          rw [attempt_perform hOp]
          exact h.imp_right fun hNext answer hAnswer => ih answer (hNext answer hAnswer)

theorem Reaches.next {op : S.Op} {next : S.Answer op → Program S Result} {answer : S.Answer op}
    (h : (perform op next).Reaches answers target) (hOther : ¬ target op)
    (hAnswer : answers op answer) : (next answer).Reaches answers target :=
  (h.resolve_left hOther) answer hAnswer

/-- Every rest of the program, itself included, has the property. -/
def Everywhere (answers : (op : S.Op) → S.Answer op → Prop)
    (property : Program S Result → Prop) : Program S Result → Prop
  | .done result => property (.done result)
  | .perform op next => property (.perform op next) ∧
      ∀ answer, answers op answer → (next answer).Everywhere answers property

theorem everywhere_bind {property : Program S Result → Prop} {program : Program S Value}
    {rest : Value → Program S Result} (hUses : program.Uses answers allowed)
    (hFirst : ∀ op (next : S.Answer op → Program S Value), allowed op →
      property ((perform op next).bind rest))
    (hRest : ∀ value, (rest value).Everywhere answers property) :
    (program.bind rest).Everywhere answers property := by
  induction program with
  | done value => exact hRest value
  | perform op next ih =>
      exact ⟨hFirst op next hUses.1, fun answer hAnswer => ih answer (hUses.2 answer hAnswer)⟩

theorem everywhere_of_uses {property : Program S Result → Prop} {program : Program S Result}
    (h : program.Uses answers allowed) (hDone : ∀ result, property (.done result))
    (hPerform : ∀ op next, allowed op → property (.perform op next)) :
    program.Everywhere answers property := by
  induction program with
  | done result => exact hDone result
  | perform op next ih =>
      exact ⟨hPerform op next h.1, fun answer hAnswer => ih answer (h.2 answer hAnswer)⟩

end Program
end Process
