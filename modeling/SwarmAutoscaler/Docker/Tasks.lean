import Mathlib.Data.List.Infix
import Mathlib.Data.List.Nodup
import SwarmAutoscaler.Docker.Service

/-! The tasks of a replicated Swarm service. Each running task has a slot of its own, which
is part of its name; the orchestrator fills the lowest free slots when there are too few
tasks and stops tasks of its choice when there are too many. -/
namespace Docker

/-- `strings.Contains` -/
def contains (s substr : String) : Bool := decide (substr.toList <:+: s.toList)

/-- The name that Docker gives to the container of a task. -/
def taskName (service : String) (slot : Nat) (id : String) : String := service ++ "." ++ toString slot ++ "." ++ id

/-- The lowest slot from 1 on that no running task has. -/
def freeSlot (slots : List Nat) : Nat :=
  ((List.range' 1 (slots.length + 1)).find? fun slot => slot ∉ slots).getD 1

/-- Docker starts the missing tasks, each in the lowest slot that is free. -/
def fill : Nat → List Nat → List Nat
  | 0, slots => slots
  | missing + 1, slots => fill missing (slots ++ [freeSlot slots])

/-- The running tasks once their number is the desired one; `stopped` are those that the
orchestrator has stopped. -/
def settle (desired : Nat) (stopped slots : List Nat) : Option (List Nat) :=
  if desired < slots.length then
    let kept := slots.filter fun slot => slot ∉ stopped
    if kept.length = desired then some kept else none
  else if stopped = [] then some (fill (desired - slots.length) slots)
  else none

section Name

variable {first first' second second' : List Char}

/-- A dot separates a part without dots from the rest in one way. -/
theorem split_unique (hFirst : '.' ∉ first) (hFirst' : '.' ∉ first')
    (h : first ++ '.' :: second = first' ++ '.' :: second') : first = first' ∧ second = second' := by
  induction first generalizing first' with
  | nil =>
      cases first' with
      | nil => exact ⟨rfl, (List.cons.inj h).2⟩
      | cons char rest => exact absurd (List.mem_cons.mpr (Or.inl (List.cons.inj h).1)) hFirst'
  | cons char rest ih =>
      cases first' with
      | nil => exact absurd (List.mem_cons.mpr (Or.inl (List.cons.inj h).1.symm)) hFirst
      | cons char' rest' =>
          obtain ⟨hChar, hRest⟩ := List.cons.inj h
          have hTails := ih (fun hMem => hFirst (List.mem_cons_of_mem _ hMem))
            (fun hMem => hFirst' (List.mem_cons_of_mem _ hMem)) hRest
          exact ⟨by rw [hChar, hTails.1], hTails.2⟩

/-- A text of three parts has ".1." in it exactly when the part in the middle is "1". -/
theorem infix_iff_middle {service digits id : List Char} (hService : '.' ∉ service) (hDigits : '.' ∉ digits)
    (hId : '.' ∉ id) : ['.', '1', '.'] <:+: service ++ '.' :: (digits ++ '.' :: id) ↔ digits = ['1'] := by
  constructor
  · rintro ⟨before, after, h⟩
    have hText : before ++ '.' :: '1' :: '.' :: after = service ++ '.' :: (digits ++ '.' :: id) := by
      rw [← h]
      simp
    have hDots := congrArg (List.count '.') hText
    simp only [List.count_append, List.count_cons_self, List.count_cons_of_ne (by decide : '1' ≠ '.'),
      List.count_eq_zero_of_not_mem hService, List.count_eq_zero_of_not_mem hDigits,
      List.count_eq_zero_of_not_mem hId] at hDots
    have hBefore : '.' ∉ before := List.count_eq_zero.mp (by omega)
    have hRest := (split_unique hBefore hService hText).2
    have hMiddle : ['1'] ++ '.' :: after = digits ++ '.' :: id := hRest
    exact (split_unique (by decide) hDigits hMiddle).1.symm
  · rintro rfl
    exact ⟨service, id, by simp⟩

theorem contains_taskName_iff {service id : String} {slot : Nat} (hService : '.' ∉ service.toList)
    (hId : '.' ∉ id.toList) : contains (taskName service slot id) ".1." = true ↔ slot = 1 := by
  have hDigits : '.' ∉ Nat.toDigits 10 slot := by
    intro hMem
    exact absurd (Nat.isDigit_of_mem_toDigits (by decide) (by decide) hMem) (by decide)
  have hText : (taskName service slot id).toList =
      service.toList ++ '.' :: (Nat.toDigits 10 slot ++ '.' :: id.toList) := by
    simp [taskName, String.toList_append, Nat.toList_repr]
  have hOne : Nat.toDigits 10 slot = ['1'] ↔ slot = 1 := by
    constructor
    · intro h
      rw [← Nat.ofDigitChars_ten_toDigits (n := slot), h]
      rfl
    · rintro rfl
      rfl
  have hPart : (".1." : String).toList = ['.', '1', '.'] := by decide
  rw [contains, decide_eq_true_iff, hText, hPart, infix_iff_middle hService hDigits hId, hOne]

end Name

section Slots

variable {desired missing slot : Nat} {stopped slots settled : List Nat}

/-- There are more candidates than running tasks. -/
theorem freeSlot_not_mem : freeSlot slots ∉ slots := by
  unfold freeSlot
  cases hFree : (List.range' 1 (slots.length + 1)).find? fun slot => slot ∉ slots with
  | some slot => simpa using List.find?_some hFree
  | none =>
      have hTaken : List.range' 1 (slots.length + 1) ⊆ slots := fun slot hMem => by
        simpa using List.find?_eq_none.mp hFree slot hMem
      have hDistinct : (List.range' 1 (slots.length + 1)).Nodup := List.nodup_range' ..
      have hLength := hDistinct.length_le_of_subset hTaken
      rw [List.length_range'] at hLength
      omega

theorem subset_fill (hMem : slot ∈ slots) : slot ∈ fill missing slots := by
  induction missing generalizing slots with
  | zero => exact hMem
  | succ missing ih => exact ih (List.mem_append_left _ hMem)

/-- The first task of a service gets slot 1. -/
theorem one_mem_fill_nil (hSome : fill missing [] ≠ []) : 1 ∈ fill missing [] := by
  cases missing with
  | zero => exact absurd rfl hSome
  | succ missing =>
      rw [fill]
      exact subset_fill (List.mem_singleton_self 1)

theorem nodup_fill (h : slots.Nodup) : (fill missing slots).Nodup := by
  induction missing generalizing slots with
  | zero => exact h
  | succ missing ih =>
      refine ih (List.nodup_append.mpr ⟨h, List.nodup_singleton _, ?_⟩)
      intro slot hMem free hFree hSame
      rw [List.mem_singleton.mp hFree] at hSame
      exact freeSlot_not_mem (hSame ▸ hMem)

theorem nodup_settle (h : slots.Nodup) (hSettle : settle desired stopped slots = some settled) :
    settled.Nodup := by
  unfold settle at hSettle
  split at hSettle
  · dsimp only at hSettle
    split at hSettle <;> cases hSettle
    exact h.filter _
  · split at hSettle <;> cases hSettle
    exact nodup_fill h

end Slots

end Docker
