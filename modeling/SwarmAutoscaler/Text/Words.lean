import Mathlib.Data.List.DropRight

/-! Lists cut into lines and words, at one separator or at every run of blanks. -/
namespace Words

variable {α : Type} {space : α → Bool} {word pad rest text : List α} {sep : α}

/-- The longest parts without blanks. -/
def fields (space : α → Bool) (text : List α) : List (List α) :=
  (text.splitOnP space).filter fun word => !word.isEmpty

/-- The text without the blanks at its two ends. -/
def trim (space : α → Bool) (text : List α) : List α := (text.dropWhile space).rdropWhile space

/-- Lines, each with the separator behind it. -/
def unlines (sep : α) (lines : List (List α)) : List α := lines.flatMap fun line => line ++ [sep]

theorem fields_of_word (hSome : word ≠ []) (hWord : ∀ char ∈ word, space char = false) :
    fields space word = [word] := by
  simp [fields, List.splitOnP_eq_singleton hWord, hSome]

theorem fields_append_cons (hSome : word ≠ []) (hWord : ∀ char ∈ word, space char = false)
    (hSep : space sep = true) : fields space (word ++ sep :: rest) = word :: fields space rest := by
  simp [fields, List.splitOnP_append_cons _ _ hSep, List.splitOnP_eq_singleton hWord, hSome]

/-- Blanks around a word are cut off. -/
theorem trim_append (hSome : word ≠ []) (hWord : ∀ char ∈ word, space char = false)
    (hPad : ∀ char ∈ pad, space char = true) : trim space (word ++ pad) = word := by
  have hFront : (word ++ pad).dropWhile space = word ++ pad := by
    cases word with
    | nil => exact absurd rfl hSome
    | cons char word => simp [hWord char (List.mem_cons_self ..)]
  have hBack : (word ++ pad).reverse.dropWhile space = word.reverse := by
    rw [List.reverse_append, List.dropWhile_append_of_pos (by simpa using hPad)]
    cases hReverse : word.reverse with
    | nil => rfl
    | cons char rest =>
        have hMem : char ∈ word := List.mem_reverse.mp (hReverse ▸ List.mem_cons_self ..)
        simp [hWord char hMem]
  rw [trim, hFront, List.rdropWhile, hBack, List.reverse_reverse]

/-- A prefix without the separator ends before it. -/
theorem isPrefixOf_append_cons [DecidableEq α] {start : List α} (hStart : sep ∉ start) :
    start.isPrefixOf (word ++ sep :: rest) = start.isPrefixOf word := by
  induction start generalizing word with
  | nil => simp
  | cons char start ih =>
      rw [List.mem_cons, not_or] at hStart
      cases word with
      | nil =>
          have hApart : (char == sep) = false := by simpa using Ne.symm hStart.1
          simp [List.isPrefixOf, hApart]
      | cons first word => simp [List.isPrefixOf, ih hStart.2]

/-- There is an empty line behind the last separator. -/
theorem splitOn_unlines [DecidableEq α] {lines : List (List α)} (hLines : ∀ line ∈ lines, sep ∉ line) :
    (unlines sep lines).splitOn sep = lines ++ [[]] := by
  induction lines with
  | nil => rfl
  | cons line lines ih =>
      have hRest := ih fun other hOther => hLines other (List.mem_cons_of_mem _ hOther)
      have hSplit : unlines sep (line :: lines) = line ++ sep :: unlines sep lines := by simp [unlines]
      rw [hSplit, List.splitOn_append_cons_self_of_not_mem (hLines line (List.mem_cons_self ..)), hRest,
        List.cons_append]

end Words
