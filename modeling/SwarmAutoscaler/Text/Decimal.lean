import Mathlib.Algebra.Order.Ring.Int
import Mathlib.Algebra.Order.Ring.Nat

/-! Numbers in decimal. A reader takes one digit after the other and stops at the first
character that is no digit, or where the number becomes too large, whichever comes first. -/
namespace Decimal

/-- Why a text is not read as a number. -/
inductive Fault where
  | malformed
  | range
  deriving DecidableEq, Repr

/-- The digits are added to the number that has been read so far. -/
def scan (limit : Nat) : Nat → List Char → Except Fault Nat
  | value, [] => .ok value
  | value, char :: rest =>
      if char.isDigit then
        let more := 10 * value + (char.toNat - '0'.toNat)
        if limit < more then .error .range else scan limit more rest
      else .error .malformed

/-- At least one digit, and nothing but digits. -/
def parseUint (limit : Nat) (text : List Char) : Except Fault Nat :=
  if text = [] then .error .malformed else scan limit 0 text

/-- The sign that a text begins with, and the rest of it. -/
def splitSign : List Char → Bool × List Char
  | '+' :: rest => (false, rest)
  | '-' :: rest => (true, rest)
  | text => (false, text)

/-- An integer of that many bits. The digits are read as a natural number first, with the
limit of the unsigned integers of the same size. -/
def parseInt (bits : Nat) (text : List Char) : Except Fault Int :=
  match parseUint (2 ^ bits - 1) (splitSign text).2 with
  | .error err => .error err
  | .ok value =>
      if (splitSign text).1 then
        if 2 ^ (bits - 1) < value then .error .range else .ok (-value)
      else if 2 ^ (bits - 1) ≤ value then .error .range
      else .ok value

section Scan

variable {limit value result bits n : Nat} {text rest : List Char}

theorem le_ofDigitChars : value ≤ Nat.ofDigitChars 10 text value := by
  induction text generalizing value with
  | nil => simp
  | cons char rest ih =>
      rw [Nat.ofDigitChars_cons]
      exact Nat.le_trans (by omega) ih

/-- What is read is what the digits say. -/
theorem scan_eq_ok (hValue : value ≤ limit) : scan limit value text = .ok result ↔
    (∀ char ∈ text, char.isDigit = true) ∧ Nat.ofDigitChars 10 text value = result ∧ result ≤ limit := by
  induction text generalizing value with
  | nil =>
      simp only [scan, Except.ok.injEq, Nat.ofDigitChars_nil]
      constructor
      · rintro rfl
        exact ⟨by simp, rfl, hValue⟩
      · exact fun h => h.2.1
  | cons char rest ih =>
      rw [scan, Nat.ofDigitChars_cons]
      by_cases hDigit : char.isDigit = true
      · rw [if_pos hDigit]
        by_cases hMore : limit < 10 * value + (char.toNat - '0'.toNat)
        · rw [if_pos hMore]
          refine iff_of_false (by simp) fun h => ?_
          have hLe := @le_ofDigitChars (10 * value + (char.toNat - '0'.toNat)) rest
          omega
        · rw [if_neg hMore, ih (Nat.not_lt.mp hMore)]
          simp [hDigit]
      · rw [if_neg hDigit]
        exact iff_of_false (by simp) fun h => hDigit (h.1 char (List.mem_cons_self ..))

/-- The number is too large where its digits are, up to a first character that need not be one. -/
theorem scan_eq_range (hValue : value ≤ limit) : scan limit value text = .error .range ↔
    ∃ digits rest, text = digits ++ rest ∧ (∀ char ∈ digits, char.isDigit = true) ∧
      limit < Nat.ofDigitChars 10 digits value := by
  induction text generalizing value with
  | nil =>
      refine iff_of_false (by simp [scan]) ?_
      rintro ⟨digits, rest, hText, _, hLarge⟩
      obtain ⟨rfl, rfl⟩ := List.append_eq_nil_iff.mp hText.symm
      rw [Nat.ofDigitChars_nil] at hLarge
      omega
  | cons char text ih =>
      have hSplit : (∃ digits rest, char :: text = digits ++ rest ∧ (∀ other ∈ digits, other.isDigit = true) ∧
          limit < Nat.ofDigitChars 10 digits value) ↔
            char.isDigit = true ∧ ∃ digits rest, text = digits ++ rest ∧ (∀ other ∈ digits, other.isDigit = true) ∧
              limit < Nat.ofDigitChars 10 digits (10 * value + (char.toNat - '0'.toNat)) := by
        constructor
        · rintro ⟨digits, rest, hText, hDigits, hLarge⟩
          cases digits with
          | nil =>
              rw [Nat.ofDigitChars_nil] at hLarge
              omega
          | cons first digits =>
              obtain ⟨rfl, rfl⟩ := List.cons_eq_cons.mp hText
              rw [Nat.ofDigitChars_cons] at hLarge
              exact ⟨hDigits _ (List.mem_cons_self ..), digits, rest, rfl,
                fun other hOther => hDigits other (List.mem_cons_of_mem _ hOther), hLarge⟩
        · rintro ⟨hDigit, digits, rest, rfl, hDigits, hLarge⟩
          refine ⟨char :: digits, rest, rfl, by simpa [hDigit] using hDigits, ?_⟩
          rwa [Nat.ofDigitChars_cons]
      rw [hSplit, scan]
      by_cases hDigit : char.isDigit = true
      · rw [if_pos hDigit]
        by_cases hMore : limit < 10 * value + (char.toNat - '0'.toNat)
        · rw [if_pos hMore]
          refine iff_of_true rfl ⟨hDigit, [], text, rfl, by simp, ?_⟩
          rwa [Nat.ofDigitChars_nil]
        · rw [if_neg hMore, ih (Nat.not_lt.mp hMore), and_iff_right hDigit]
      · rw [if_neg hDigit]
        exact iff_of_false (by simp) fun h => hDigit h.1

theorem isDigit_of_mem_toDigits {char : Char} (hMem : char ∈ Nat.toDigits 10 n) : char.isDigit = true :=
  Nat.isDigit_of_mem_toDigits (by decide) (by decide) hMem

/-- A number that was written is read back, unless it is too large. -/
theorem parseUint_toDigits :
    parseUint limit (Nat.toDigits 10 n) = if n ≤ limit then .ok n else .error .range := by
  rw [parseUint, if_neg Nat.toDigits_ne_nil]
  split
  · next hFits =>
      refine (scan_eq_ok (Nat.zero_le _)).mpr ⟨fun char hMem => isDigit_of_mem_toDigits hMem, ?_, hFits⟩
      exact Nat.ofDigitChars_ten_toDigits
  · next hLarge =>
      refine (scan_eq_range (Nat.zero_le _)).mpr ⟨Nat.toDigits 10 n, [], (List.append_nil _).symm,
        fun char hMem => isDigit_of_mem_toDigits hMem, ?_⟩
      rw [Nat.ofDigitChars_ten_toDigits]
      exact Nat.not_le.mp hLarge

theorem parseUint_eq_ok : parseUint limit text = .ok result ↔
    text ≠ [] ∧ (∀ char ∈ text, char.isDigit = true) ∧ Nat.ofDigitChars 10 text 0 = result ∧ result ≤ limit := by
  rw [parseUint]
  split
  · next hNil => exact iff_of_false (by simp) fun h => h.1 hNil
  · next hSome => rw [scan_eq_ok (Nat.zero_le _), and_iff_right hSome]

end Scan

section Signed

variable {bits n : Nat} {text : List Char} {result : Int}

theorem splitSign_of_digits (hDigits : ∀ char ∈ text, char.isDigit = true) : splitSign text = (false, text) := by
  unfold splitSign
  split
  · exact absurd (hDigits '+' (List.mem_cons_self ..)) (by decide)
  · exact absurd (hDigits '-' (List.mem_cons_self ..)) (by decide)
  · rfl

/-- A sign, when there is one, and digits. -/
structure Numeral (text : List Char) (value : Int) : Prop where
  some : (splitSign text).2 ≠ []
  digits : ∀ char ∈ (splitSign text).2, char.isDigit = true
  value : value = if (splitSign text).1 then -(Nat.ofDigitChars 10 (splitSign text).2 0 : Int)
    else Nat.ofDigitChars 10 (splitSign text).2 0

/-- Exactly the numerals of the integers that fit are read, and as these integers. -/
theorem parseInt_eq_ok (hBits : 0 < bits) : parseInt bits text = .ok result ↔
    Numeral text result ∧ -2 ^ (bits - 1) ≤ result ∧ result < 2 ^ (bits - 1) := by
  obtain ⟨bits, rfl⟩ := Nat.exists_eq_add_of_lt hBits
  have hDouble : 2 ^ (0 + bits + 1) = 2 * 2 ^ (0 + bits) := by rw [Nat.pow_succ, Nat.mul_comm]
  have hPow : ((2 ^ (0 + bits) : Nat) : Int) = 2 ^ (0 + bits) := by simp
  have hPos : 0 < 2 ^ (0 + bits) := Nat.two_pow_pos _
  rw [parseInt, Nat.add_sub_cancel]
  cases hRead : parseUint (2 ^ (0 + bits + 1) - 1) (splitSign text).2 with
  | error err =>
      refine iff_of_false (by simp) fun ⟨hNumeral, hLow, hHigh⟩ => ?_
      have hOk : parseUint (2 ^ (0 + bits + 1) - 1) (splitSign text).2 =
          .ok (Nat.ofDigitChars 10 (splitSign text).2 0) := by
        refine parseUint_eq_ok.mpr ⟨hNumeral.some, hNumeral.digits, rfl, ?_⟩
        have hValue := hNumeral.value
        split at hValue <;> omega
      rw [hRead] at hOk
      cases hOk
  | ok value =>
      obtain ⟨hSome, hDigits, rfl, hFits⟩ := parseUint_eq_ok.mp hRead
      have hNumeral : Numeral text result ↔
          result = if (splitSign text).1 then -(Nat.ofDigitChars 10 (splitSign text).2 0 : Int)
            else Nat.ofDigitChars 10 (splitSign text).2 0 :=
        ⟨fun h => h.value, fun h => ⟨hSome, hDigits, h⟩⟩
      rw [hNumeral]
      dsimp only
      split
      · split
        · exact iff_of_false (by simp) (by omega)
        · rw [Except.ok.injEq]
          omega
      · split
        · exact iff_of_false (by simp) (by omega)
        · rw [Except.ok.injEq]
          omega

/-- What was written without a sign is read back, unless it is too large. -/
theorem parseInt_toDigits (hBits : 0 < bits) :
    parseInt bits (Nat.toDigits 10 n) = if n < 2 ^ (bits - 1) then .ok (n : Int) else .error .range := by
  obtain ⟨bits, rfl⟩ := Nat.exists_eq_add_of_lt hBits
  have hDouble : 2 ^ (0 + bits + 1) = 2 * 2 ^ (0 + bits) := by rw [Nat.pow_succ, Nat.mul_comm]
  have hPos : 0 < 2 ^ (0 + bits) := Nat.two_pow_pos _
  rw [parseInt, splitSign_of_digits fun char hMem => isDigit_of_mem_toDigits hMem, parseUint_toDigits,
    Nat.add_sub_cancel]
  by_cases hWide : n ≤ 2 ^ (0 + bits + 1) - 1
  · rw [if_pos hWide]
    dsimp only
    rw [if_neg (by simp)]
    by_cases hFits : n < 2 ^ (0 + bits)
    · rw [if_pos hFits, if_neg (Nat.not_le.mpr hFits)]
    · rw [if_neg hFits, if_pos (Nat.not_lt.mp hFits)]
  · rw [if_neg hWide, if_neg (by omega)]

end Signed

end Decimal
