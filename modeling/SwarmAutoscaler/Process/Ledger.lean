import Mathlib.Data.List.Forall2
import SwarmAutoscaler.Process.Machine

/-! Credits of threads. Every thread holds an amount that covers the rest of its code, in
whatever sense; a step spends some of it, shares it with a new thread, or brings income. -/
namespace Process

variable {S : Signature} {World Call Result Env Value : Type}

namespace Program

/-- The most that the program can come to pay for its operations, whatever it is answered. -/
def Costs (cost : S.Op → Nat) : Program S Result → Nat → Prop
  | .done _, _ => True
  | .perform op next, credit => ∃ rest, cost op + rest ≤ credit ∧ ∀ answer, (next answer).Costs cost rest

variable {cost : S.Op → Nat} {credit : Nat}

theorem Costs.mono {program : Program S Result} {more : Nat} (h : program.Costs cost credit)
    (hMore : credit ≤ more) :
    program.Costs cost more := by
  cases program with
  | done result => trivial
  | perform op next =>
      obtain ⟨rest, hPays, hNext⟩ := h
      exact ⟨rest, Nat.le_trans hPays hMore, hNext⟩

theorem costs_bind {program : Program S Value} {rest : Value → Program S Result} (first second : Nat)
    (hSum : first + second ≤ credit) (hFirst : program.Costs cost first)
    (hRest : ∀ value, (rest value).Costs cost second) : (program.bind rest).Costs cost credit := by
  induction program generalizing credit first with
  | done value => exact (hRest value).mono (by omega)
  | perform op next ih =>
      obtain ⟨left, hPays, hNext⟩ := hFirst
      exact ⟨left + second, by omega, fun answer => ih answer left (Nat.le_refl _) (hNext answer)⟩

/-- A handler that is no dearer than its fault adds nothing to the price. -/
theorem costs_attempt {trap : S.Op → Option S.Op} {program : Program S Value} (h : program.Costs cost credit)
    (hTrap : ∀ op, ∀ handler ∈ trap op, cost handler ≤ cost op) : (program.attempt trap).Costs cost credit := by
  induction program generalizing credit with
  | done value => trivial
  | perform op next ih =>
      obtain ⟨rest, hPays, hNext⟩ := h
      cases hOp : trap op with
      | some handler =>
          rw [attempt_faulty hOp]
          have hCheap := hTrap op handler hOp
          exact ⟨rest, by omega, fun _ => trivial⟩
      | none =>
          rw [attempt_perform hOp]
          exact ⟨rest, hPays, fun answer => ih answer (hNext answer)⟩

/-- The same when the price of an operation depends on a level. Payments raise the level, and
so may others while the program waits. -/
def Climbs (price : Nat → S.Op → Nat) (answers : Nat → (op : S.Op) → S.Answer op → Prop) :
    Program S Result → Nat → Nat → Prop
  | .done _, _, _ => True
  | .perform op next, level, credit => ∀ higher, level ≤ higher → ∃ rest, price higher op + rest ≤ credit ∧
      ∀ answer, answers higher op answer → (next answer).Climbs price answers (higher + price higher op) rest

variable {price : Nat → S.Op → Nat} {answers : Nat → (op : S.Op) → S.Answer op → Prop} {level : Nat}

theorem Climbs.mono {program : Program S Result} {higher more : Nat}
    (h : program.Climbs price answers level credit) (hHigher : level ≤ higher) (hMore : credit ≤ more) :
    program.Climbs price answers higher more := by
  cases program with
  | done result => trivial
  | perform op next =>
      intro top hTop
      obtain ⟨rest, hPays, hNext⟩ := h top (Nat.le_trans hHigher hTop)
      exact ⟨rest, Nat.le_trans hPays hMore, hNext⟩

theorem climbs_bind {program : Program S Value} {rest : Value → Program S Result} (first second : Nat)
    (hSum : first + second ≤ credit) (hFirst : program.Climbs price answers level first)
    (hRest : ∀ value higher, level ≤ higher → (rest value).Climbs price answers higher second) :
    (program.bind rest).Climbs price answers level credit := by
  induction program generalizing level credit first with
  | done value => exact (hRest value level (Nat.le_refl _)).mono (Nat.le_refl _) (by omega)
  | perform op next ih =>
      intro higher hHigher
      obtain ⟨left, hPays, hNext⟩ := hFirst higher hHigher
      refine ⟨left + second, by omega, fun answer hAnswer => ?_⟩
      refine ih answer left (Nat.le_refl _) (hNext answer hAnswer) fun value top hTop => ?_
      exact hRest value top (by omega)

theorem climbs_attempt {trap : S.Op → Option S.Op} {program : Program S Value}
    (h : program.Climbs price answers level credit)
    (hTrap : ∀ op, ∀ handler ∈ trap op, ∀ level, price level handler = 0) :
    (program.attempt trap).Climbs price answers level credit := by
  induction program generalizing level credit with
  | done value => trivial
  | perform op next ih =>
      cases hOp : trap op with
      | some handler =>
          rw [attempt_faulty hOp]
          intro higher _
          exact ⟨credit, by rw [hTrap op handler hOp higher, Nat.zero_add], fun _ _ => trivial⟩
      | none =>
          rw [attempt_perform hOp]
          intro higher hHigher
          obtain ⟨rest, hPays, hNext⟩ := h higher hHigher
          exact ⟨rest, hPays, fun answer hAnswer => ih answer (hNext answer hAnswer)⟩

/-- A program that only performs free operations needs no credit. -/
theorem climbs_of_uses {program : Program S Result} {allowed : S.Op → Prop}
    (hFree : ∀ op, allowed op → ∀ level, price level op = 0)
    (h : program.Uses (fun _ _ => True) allowed) : program.Climbs price answers level credit := by
  induction program generalizing level credit with
  | done result => trivial
  | perform op next ih =>
      intro higher _
      refine ⟨credit, by rw [hFree op h.1 higher, Nat.zero_add], fun answer _ => ?_⟩
      exact ih answer (h.2 answer trivial)

end Program

/-- Related lists stay so when the relation is weakened and a related pair replaces one of the pairs. -/
theorem forall₂_set {Item : Type} {covers covers' : Nat → Item → Prop} {items : List Item} {credits : List Nat}
    {i : Nat} {item item' : Item} {spent income : Nat} {shared : Nat → Prop}
    (h : List.Forall₂ (fun item credit => covers credit item) items credits) (hItem : items[i]? = some item)
    (hKeep : ∀ credit item, covers credit item → covers' credit item)
    (hPays : ∀ credit, covers credit item →
      ∃ rest share, covers' rest item' ∧ shared share ∧ rest + share + spent ≤ credit + income) :
    ∃ credits' share, List.Forall₂ (fun item credit => covers' credit item) (items.set i item') credits' ∧
      shared share ∧ credits'.sum + share + spent ≤ credits.sum + income := by
  induction h generalizing i with
  | nil => cases hItem
  | @cons head credit items credits hHead hTail ih =>
      cases i with
      | zero =>
          cases hItem
          obtain ⟨rest, share, hRest, hShare, hSum⟩ := hPays credit hHead
          refine ⟨rest :: credits, share, .cons hRest (hTail.imp fun _ _ => hKeep _ _), hShare, ?_⟩
          rw [List.sum_cons, List.sum_cons]
          omega
      | succ i =>
          obtain ⟨credits', share, hSet, hShare, hSum⟩ := ih hItem
          refine ⟨credit :: credits', share, .cons (hKeep _ _ hHead) hSet, hShare, ?_⟩
          rw [List.sum_cons, List.sum_cons]
          omega

namespace Machine

variable (M : Machine S World Call Result Env)

/-- The threads hold credits that cover their code and come to no more than the total. -/
def Funded (covers : Nat → Thread S Call Result → Prop) (s : State S World Call Result) (total : Nat) : Prop :=
  ∃ credits, List.Forall₂ (fun thread credit => covers credit thread) s.threads credits ∧ credits.sum ≤ total

variable {M} {covers covers' : Nat → Thread S Call Result → Prop} {s : State S World Call Result}
  {total credit : Nat}

/-- Threads that need no credit are funded. -/
theorem funded_of_forall (h : ∀ thread ∈ s.threads, covers 0 thread) : Funded covers s 0 := by
  refine ⟨s.threads.map fun _ => 0, ?_, by simp⟩
  rw [List.forall₂_map_right_iff, List.forall₂_same]
  exact h

theorem Funded.invoke {call : Call} (h : Funded covers s total) (hCovers : covers credit (M.spawn call)) :
    Funded covers { s with threads := s.threads ++ [M.spawn call] } (total + credit) := by
  obtain ⟨credits, hAll, hSum⟩ := h
  refine ⟨credits ++ [credit], List.rel_append hAll (.cons hCovers .nil), ?_⟩
  rw [List.sum_append, List.sum_singleton]
  omega

/-- One thread pays for its operation and for the thread that the operation starts. -/
theorem Funded.resume {i : Nat} {call : Call} {op : S.Op} {next : S.Answer op → Program S Result}
    {answer : S.Answer op} {spent income : Nat} (h : Funded covers s total)
    (atOp : s.threads[i]? = some ⟨call, .perform op next⟩)
    (hKeep : ∀ credit thread, covers credit thread → covers' credit thread)
    (hPays : ∀ credit, covers credit ⟨call, .perform op next⟩ → ∃ rest share,
      covers' rest ⟨call, M.settle call (next answer)⟩ ∧ (∀ child ∈ M.forks op, covers' share (M.spawn child)) ∧
        rest + share + spent ≤ credit + income) :
    ∃ left, Funded covers' (M.resume s i call op next answer) left ∧ left + spent ≤ total + income := by
  obtain ⟨credits, hAll, hSum⟩ := h
  obtain ⟨credits', share, hSet, hShare, hPaid⟩ := forall₂_set hAll atOp hKeep hPays
  refine ⟨credits'.sum + share, ⟨credits' ++ (M.forks op).toList.map fun _ => share, ?_, ?_⟩, by omega⟩
  · refine List.rel_append hSet ?_
    rw [List.forall₂_map_right_iff, List.forall₂_map_left_iff, List.forall₂_same]
    exact fun child hChild => hShare child (by simpa using hChild)
  · rw [List.sum_append]
    cases M.forks op <;> simp

end Machine
end Process
