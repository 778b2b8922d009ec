import Mathlib.Algebra.Order.Ring.Nat

/-! Conversion of integers to floating point: round to nearest, ties to even, with a fixed
number of significant bits. What comes out is an integer again. -/
namespace Binary64

/-- `n / d`, rounded to the nearest integer and half-way to the even one. -/
def divEven (n d : Nat) : Nat :=
  if 2 * (n % d) < d ∨ (2 * (n % d) = d ∧ n / d % 2 = 0) then n / d else n / d + 1

/-- The distance of neighbours at `m`, with `bits` significant bits. -/
def spacing (bits m : Nat) : Nat := 2 ^ (Nat.log2 m + 1 - bits)

/-- The number rounded to `bits` significant bits, with ties to even. -/
def round (bits m : Nat) : Nat := divEven m (spacing bits m) * spacing bits m

/-- The number of significant bits of `float64`. -/
def significand : Nat := 53

/-- The nearest `float64` to an integer, with ties to even. -/
def ofInt : Int → Int
  | .ofNat m => round significand m
  | .negSucc m => -(round significand (m + 1) : Nat)

section Round

variable {n n' d m m' bits k : Nat}

theorem divEven_cases (n d : Nat) : divEven n d = n / d ∨ divEven n d = n / d + 1 := by
  unfold divEven
  split
  · exact Or.inl rfl
  · exact Or.inr rfl

theorem divEven_mul (hPos : 0 < d) (k : Nat) : divEven (k * d) d = k := by
  rw [divEven, Nat.mul_mod_left, Nat.mul_div_left k hPos, if_pos (Or.inl (by omega))]

theorem divEven_mono (hLe : n ≤ n') : divEven n d ≤ divEven n' d := by
  rcases Nat.lt_or_ge (n / d) (n' / d) with hLess | hGreater
  · rcases divEven_cases n d with hDown | hUp <;> rcases divEven_cases n' d with hDown' | hUp' <;> omega
  · have hSame : n / d = n' / d := Nat.le_antisymm (Nat.div_le_div_right hLe) hGreater
    have hRest : n % d ≤ n' % d := by
      have hSplit := Nat.div_add_mod n d
      have hSplit' := Nat.div_add_mod n' d
      rw [← hSame] at hSplit'
      omega
    unfold divEven
    rw [← hSame]
    split <;> split <;> omega

theorem spacing_pos : 0 < spacing bits m := Nat.two_pow_pos _

/-- A multiple of the spacing is not rounded. -/
theorem round_mul_spacing :
    divEven (k * spacing bits m) (spacing bits m) * spacing bits m = k * spacing bits m := by
  rw [divEven_mul spacing_pos]

/-- A power of two that is at least the spacing is a multiple of it. -/
theorem pow_eq_mul_spacing (h : Nat.log2 m + 1 - bits ≤ k) : ∃ multiple, 2 ^ k = multiple * spacing bits m := by
  refine ⟨2 ^ (k - (Nat.log2 m + 1 - bits)), ?_⟩
  rw [spacing, ← Nat.pow_add, Nat.sub_add_cancel h]

/-- Integers that fit into the significant bits are not rounded. -/
theorem round_of_lt (h : m < 2 ^ bits) : round bits m = m := by
  rcases Nat.eq_zero_or_pos m with rfl | hPos
  · simp [round, divEven, spacing_pos]
  · have hLog : Nat.log2 m + 1 ≤ bits := (Nat.log2_lt (Nat.ne_of_gt hPos)).mpr h
    have hSpacing : spacing bits m = 1 := by rw [spacing, Nat.sub_eq_zero_of_le hLog, Nat.pow_zero]
    have hExact := divEven_mul Nat.one_pos m
    rw [Nat.mul_one] at hExact
    rw [round, hSpacing, hExact, Nat.mul_one]

/-- Rounding does not leave the binade. -/
theorem round_le (hLess : m < 2 ^ (Nat.log2 m + 1)) : round bits m ≤ 2 ^ (Nat.log2 m + 1) := by
  obtain ⟨multiple, hMultiple⟩ := @pow_eq_mul_spacing m bits (Nat.log2 m + 1) (Nat.sub_le _ _)
  calc round bits m ≤ divEven (2 ^ (Nat.log2 m + 1)) (spacing bits m) * spacing bits m :=
        Nat.mul_le_mul_right _ (divEven_mono (Nat.le_of_lt hLess))
    _ = 2 ^ (Nat.log2 m + 1) := by rw [hMultiple, round_mul_spacing]

theorem le_round (hBits : 0 < bits) (hLe : 2 ^ Nat.log2 m ≤ m) : 2 ^ Nat.log2 m ≤ round bits m := by
  obtain ⟨multiple, hMultiple⟩ := @pow_eq_mul_spacing m bits (Nat.log2 m) (by omega)
  calc 2 ^ Nat.log2 m = divEven (2 ^ Nat.log2 m) (spacing bits m) * spacing bits m := by
        rw [hMultiple, round_mul_spacing]
    _ ≤ round bits m := Nat.mul_le_mul_right _ (divEven_mono hLe)

theorem round_mono (hBits : 0 < bits) (hLe : m ≤ m') : round bits m ≤ round bits m' := by
  rcases Nat.eq_zero_or_pos m with rfl | hPos
  · rw [round_of_lt (Nat.two_pow_pos bits)]
    exact Nat.zero_le _
  · have hLog : Nat.log2 m ≤ Nat.log2 m' :=
      (Nat.le_log2 (by omega)).mpr (Nat.le_trans (Nat.log2_self_le (by omega)) hLe)
    rcases Nat.eq_or_lt_of_le hLog with hSame | hLess
    · rw [round, round, spacing, spacing, hSame]
      exact Nat.mul_le_mul_right _ (divEven_mono hLe)
    · calc round bits m ≤ 2 ^ (Nat.log2 m + 1) := round_le Nat.lt_log2_self
        _ ≤ 2 ^ Nat.log2 m' := Nat.pow_le_pow_right (by decide) hLess
        _ ≤ round bits m' := le_round hBits (Nat.log2_self_le (by omega))

theorem ofInt_natCast (m : Nat) : ofInt m = round significand m := rfl

theorem ofInt_neg (m : Nat) : ofInt (-m) = -(round significand m : Int) := by
  cases m with
  | zero => rfl
  | succ m => rfl

theorem ofInt_mono {a b : Int} (hLe : a ≤ b) : ofInt a ≤ ofInt b := by
  have hBits : 0 < significand := by decide
  rcases Int.eq_nat_or_neg a with ⟨m, rfl | rfl⟩ <;> rcases Int.eq_nat_or_neg b with ⟨m', rfl | rfl⟩
  · exact Int.ofNat_le.mpr (round_mono hBits (Int.ofNat_le.mp hLe))
  · have hZero : m = 0 ∧ m' = 0 := by omega
    rw [hZero.1, hZero.2]
    exact Int.le_refl _
  · rw [ofInt_neg, ofInt_natCast]
    omega
  · rw [ofInt_neg, ofInt_neg]
    exact Int.neg_le_neg (Int.ofNat_le.mpr (round_mono hBits (by omega)))

/-- Only a smaller integer becomes smaller. -/
theorem lt_of_ofInt_lt {a b : Int} (h : ofInt a < ofInt b) : a < b :=
  Int.lt_of_not_ge fun hLe => Int.not_le.mpr h (ofInt_mono hLe)

theorem ofInt_of_lt {a : Int} (h : a.natAbs < 2 ^ significand) : ofInt a = a := by
  rcases Int.eq_nat_or_neg a with ⟨m, rfl | rfl⟩
  · rw [ofInt_natCast, round_of_lt (by simpa using h)]
  · rw [ofInt_neg, round_of_lt (by simpa using h)]

/-- An integer with fewer bits is compared with every other one as if nothing were rounded. -/
theorem ofInt_lt_ofInt_iff {a b : Int} (h : b.natAbs + 1 < 2 ^ significand) : ofInt a < ofInt b ↔ a < b := by
  refine ⟨lt_of_ofInt_lt, fun hLess => ?_⟩
  calc ofInt a ≤ ofInt (b - 1) := ofInt_mono (by omega)
    _ = b - 1 := ofInt_of_lt (by omega)
    _ < b := by omega
    _ = ofInt b := (ofInt_of_lt (by omega)).symm

theorem ofInt_lt_ofInt_iff_left {a b : Int} (h : a.natAbs + 1 < 2 ^ significand) : ofInt a < ofInt b ↔ a < b := by
  refine ⟨lt_of_ofInt_lt, fun hLess => ?_⟩
  calc ofInt a = a := ofInt_of_lt (by omega)
    _ < a + 1 := by omega
    _ = ofInt (a + 1) := (ofInt_of_lt (by omega)).symm
    _ ≤ ofInt b := ofInt_mono (by omega)

end Round

end Binary64
