import Mathlib.Algebra.Order.Field.Basic
import Mathlib.Data.Rat.Cast.Order
import Mathlib.Tactic.FieldSimp
import Mathlib.Tactic.Linarith
import Mathlib.Tactic.Positivity
import Mathlib.Tactic.Ring
import SwarmAutoscaler.Arith.Binary64

/-! Rounding of fractions to `float64`, as long as nothing overflows or becomes subnormal,
and how the relative errors of several roundings add up. -/
namespace Binary64

/-- The binade of `n / d`: the exponent of the largest power of two that is not above it. -/
def exponent (n d : Nat) : Int :=
  let e : Int := Nat.log2 n - Nat.log2 d
  if d * 2 ^ e.toNat ≤ n * 2 ^ (-e).toNat then e else e - 1

/-- `n / d`, rounded to the nearest number with that many significant bits. -/
def ofRatio (n d : Nat) : Rat :=
  let shift := exponent n d + 1 - significand
  (divEven (n * 2 ^ (-shift).toNat) (d * 2 ^ shift.toNat) * 2 ^ shift.toNat : Nat) / (2 ^ (-shift).toNat : Nat)

/-- The nearest `float64` to a rational number of either sign. -/
def ofRat (x : Rat) : Rat := if x < 0 then -ofRatio x.num.natAbs x.den else ofRatio x.num.natAbs x.den

/-- The rounding error of one operation, relative to its exact result. -/
def unit : Rat := 1 / 2 ^ 53

/-- `x` is `y` up to a relative error. -/
def Within (ε x y : Rat) : Prop := |x - y| ≤ ε * |y|

section Errors

variable {ε δ x y z c s t : Rat}

theorem Within.refl (hε : 0 ≤ ε) (x : Rat) : Within ε x x := by
  rw [Within, sub_self, abs_zero]
  exact mul_nonneg hε (abs_nonneg x)

theorem Within.mono (h : Within ε x y) (hLe : ε ≤ δ) : Within δ x y :=
  le_trans h (mul_le_mul_of_nonneg_right hLe (abs_nonneg y))

theorem Within.abs_le_mul (h : Within ε x y) : |x| ≤ (1 + ε) * |y| := by
  have hTriangle := abs_sub_abs_le_abs_sub x y
  rw [Within] at h
  linarith

/-- One more rounding. -/
theorem Within.trans (hε : 0 ≤ ε) (h : Within ε x y) (hNext : Within δ y z) :
    Within (ε + δ + ε * δ) x z := by
  have hBound := mul_le_mul_of_nonneg_left hNext.abs_le_mul hε
  rw [Within] at h hNext ⊢
  have hTriangle := abs_sub_le x y z
  linarith

theorem Within.mul (h : Within ε x y) (c : Rat) : Within ε (x * c) (y * c) := by
  rw [Within, ← sub_mul, abs_mul, abs_mul, ← mul_assoc]
  exact mul_le_mul_of_nonneg_right h (abs_nonneg c)

theorem Within.div_const (h : Within ε x y) (c : Rat) : Within ε (x / c) (y / c) := by
  rw [div_eq_mul_inv, div_eq_mul_inv]
  exact h.mul _

/-- Positive numbers are added. -/
theorem Within.add (hx : 0 ≤ y) (hz : 0 ≤ z) (h : Within ε x y) (hz' : Within ε t z) :
    Within ε (x + t) (y + z) := by
  rw [Within, abs_of_nonneg hx] at h
  rw [Within, abs_of_nonneg hz] at hz'
  rw [Within, abs_of_nonneg (add_nonneg hx hz)]
  have hTriangle := abs_add_le (x - y) (t - z)
  have hSum : x + t - (y + z) = (x - y) + (t - z) := by ring
  rw [hSum]
  linarith

/-- The divisor has an error too. -/
theorem Within.div (hδ : δ < 1) (ht : 0 < t) (h : Within ε x y) (hDivisor : Within δ s t) :
    Within ((ε + δ) / (1 - δ)) (x / s) (y / t) := by
  rw [Within, abs_of_pos ht] at hDivisor
  have hLow := (abs_le.mp hDivisor).1
  have hScaled : 0 < (1 - δ) * t := mul_pos (sub_pos.mpr hδ) ht
  have hs : 0 < s := by linarith
  have hSplit : x / s - y / t = ((x - y) * t + y * (t - s)) / (s * t) := by
    field_simp
    ring
  have hTop : |(x - y) * t + y * (t - s)| ≤ (ε + δ) * |y| * t := by
    have hTriangle := abs_add_le ((x - y) * t) (y * (t - s))
    rw [abs_mul, abs_mul, abs_of_pos ht, abs_sub_comm t s] at hTriangle
    have hFirst := mul_le_mul_of_nonneg_right h (le_of_lt ht)
    have hSecond := mul_le_mul_of_nonneg_left hDivisor (abs_nonneg y)
    linarith
  calc |x / s - y / t| = |(x - y) * t + y * (t - s)| / (s * t) := by
        rw [hSplit, abs_div, abs_of_pos (mul_pos hs ht)]
    _ ≤ (ε + δ) * |y| * t / (s * t) := div_le_div_of_nonneg_right hTop (le_of_lt (mul_pos hs ht))
    _ = (ε + δ) * |y| / s := by field_simp
    _ ≤ (ε + δ) * |y| / ((1 - δ) * t) := by
        have hTopNonneg : 0 ≤ (ε + δ) * |y| := by
          have hPos := le_trans (abs_nonneg _) hTop
          exact nonneg_of_mul_nonneg_left hPos ht
        refine div_le_div_of_nonneg_left hTopNonneg hScaled ?_
        linarith
    _ = (ε + δ) / (1 - δ) * |y / t| := by
        rw [abs_div, abs_of_pos ht]
        field_simp

end Errors

section Rounding

variable {n d : Nat}

/-- The rounded quotient is at most half a unit off. -/
theorem divEven_error (hd : 0 < d) : 2 * n ≤ 2 * (divEven n d * d) + d ∧ 2 * (divEven n d * d) ≤ 2 * n + d := by
  have hSplit := Nat.div_add_mod n d
  have hRest := Nat.mod_lt n hd
  rw [divEven]
  generalize n % d = rest at hSplit hRest ⊢
  generalize n / d = quotient at hSplit ⊢
  rw [Nat.mul_comm d] at hSplit
  split
  · omega
  · rw [Nat.add_mul, Nat.one_mul]
    omega

theorem two_zpow_eq (k : Int) : (2 : Rat) ^ k = 2 ^ k.toNat / 2 ^ (-k).toNat := by
  rcases Int.eq_nat_or_neg k with ⟨m, rfl | rfl⟩
  · simp
  · simp

/-- The power of two of the binade is not above the fraction. -/
theorem two_zpow_exponent_le (hn : 0 < n) (hd : 0 < d) : (2 : Rat) ^ exponent n d ≤ n / d := by
  have hd' : (0 : Rat) < d := Nat.cast_pos.mpr hd
  rw [exponent]
  split
  · next hLe =>
      rw [two_zpow_eq, div_le_div_iff₀ (by positivity) hd', mul_comm]
      exact_mod_cast hLe
  · have hBelow : (2 : Rat) ^ Nat.log2 n ≤ n := by exact_mod_cast Nat.log2_self_le (Nat.ne_of_gt hn)
    have hAbove : (d : Rat) ≤ 2 ^ (Nat.log2 d + 1) := by exact_mod_cast Nat.le_of_lt Nat.lt_log2_self
    have hSplit : (2 : Rat) ^ ((Nat.log2 n : Int) - Nat.log2 d - 1) = 2 ^ Nat.log2 n / 2 ^ (Nat.log2 d + 1) := by
      rw [Int.sub_sub, zpow_sub₀ (by norm_num), zpow_natCast]
      norm_cast
    rw [hSplit]
    exact div_le_div₀ (Nat.cast_nonneg n) hBelow hd' hAbove

theorem within_ofRatio (hn : 0 < n) (hd : 0 < d) : Within unit (ofRatio n d) (n / d) := by
  have hBinade := two_zpow_exponent_le hn hd
  have hSpacing := two_zpow_eq (exponent n d + 1 - significand)
  have hd' : (0 : Rat) < d := Nat.cast_pos.mpr hd
  obtain ⟨hDown, hUp⟩ := @divEven_error (n * 2 ^ (-(exponent n d + 1 - significand)).toNat)
    (d * 2 ^ (exponent n d + 1 - significand).toNat) (by positivity)
  rw [ofRatio]
  generalize (exponent n d + 1 - significand).toNat = q at hSpacing hDown hUp ⊢
  generalize (-(exponent n d + 1 - significand)).toNat = p at hSpacing hDown hUp ⊢
  generalize divEven (n * 2 ^ p) (d * 2 ^ q) = k at hDown hUp ⊢
  have hp : (0 : Rat) < 2 ^ p := by positivity
  have hDown : (2 : Rat) * (n * 2 ^ p) ≤ 2 * (k * (d * 2 ^ q)) + d * 2 ^ q := by exact_mod_cast hDown
  have hUp : (2 : Rat) * (k * (d * 2 ^ q)) ≤ 2 * (n * 2 ^ p) + d * 2 ^ q := by exact_mod_cast hUp
  have hSplit : ((k * 2 ^ q : Nat) : Rat) / (2 ^ p : Nat) - n / d = (k * (d * 2 ^ q) - n * 2 ^ p) / (2 ^ p * d) := by
    push_cast
    field_simp
  have hHalf : |(k : Rat) * (d * 2 ^ q) - n * 2 ^ p| ≤ d * 2 ^ q / 2 := by
    rw [abs_le]
    constructor <;> linarith
  -- Half the spacing, as a part of the binade.
  have hUnit : (2 : Rat) ^ q / 2 ^ p / 2 = unit * 2 ^ exponent n d := by
    have hExponent : exponent n d + 1 - significand = exponent n d - 52 := by
      rw [significand]
      omega
    rw [← hSpacing, hExponent, zpow_sub₀ (by norm_num), unit]
    norm_num
    ring
  rw [Within, hSplit, abs_div, abs_of_pos (mul_pos hp hd')]
  calc |(k : Rat) * (d * 2 ^ q) - n * 2 ^ p| / (2 ^ p * d) ≤ d * 2 ^ q / 2 / (2 ^ p * d) :=
        div_le_div_of_nonneg_right hHalf (by positivity)
    _ = 2 ^ q / 2 ^ p / 2 := by field_simp
    _ = unit * 2 ^ exponent n d := hUnit
    _ ≤ unit * |(n : Rat) / d| := by
        rw [abs_of_nonneg (by positivity)]
        exact mul_le_mul_of_nonneg_left hBinade (by norm_num [unit])

theorem ofRatio_zero : ofRatio 0 d = 0 := by simp [ofRatio, divEven]

/-- Every rounding is off by at most one unit. -/
theorem within_ofRat (x : Rat) : Within unit (ofRat x) x := by
  have hAbs : ∀ x : Rat, Within unit (ofRatio x.num.natAbs x.den) |x| := by
    intro x
    rcases Nat.eq_zero_or_pos x.num.natAbs with hZero | hPos
    · have hx : x = 0 := Rat.num_eq_zero.mp (Int.natAbs_eq_zero.mp hZero)
      rw [hZero, ofRatio_zero, hx, abs_zero]
      exact Within.refl (by norm_num [unit]) 0
    · have hRatio := @within_ofRatio x.num.natAbs x.den hPos x.den_pos
      have hx : |x| = x.num.natAbs / x.den := by
        rw [Nat.cast_natAbs, Int.cast_abs]
        conv_lhs => rw [← Rat.num_div_den x]
        rw [abs_div, Nat.abs_cast]
      rwa [hx]
  have h := hAbs x
  rw [Within, abs_abs] at h
  rw [Within, ofRat]
  split
  · next hNeg =>
      rw [abs_of_neg hNeg] at h ⊢
      rw [← abs_neg]
      have hSame : -(-ofRatio x.num.natAbs x.den - x) = ofRatio x.num.natAbs x.den - -x := by ring
      rwa [hSame]
  · next hNonneg =>
      rwa [abs_of_nonneg (not_lt.mp hNonneg)] at h ⊢

/-- Integers are rounded as before. -/
theorem ofRatio_one (m : Nat) : ofRatio m 1 = round significand m := by
  rcases Nat.eq_zero_or_pos m with rfl | hPos
  · rw [ofRatio_zero, round_of_lt (by decide), Nat.cast_zero]
  · have hLog : (Nat.log2 m : Int).toNat = Nat.log2 m := Int.toNat_natCast _
    have hNone : (-(Nat.log2 m : Int)).toNat = 0 := by omega
    have hLe : 1 * 2 ^ (Nat.log2 m : Int).toNat ≤ m * 2 ^ (-(Nat.log2 m : Int)).toNat := by
      rw [hLog, hNone, Nat.one_mul, Nat.pow_zero, Nat.mul_one]
      exact Nat.log2_self_le (Nat.ne_of_gt hPos)
    have hOne : Nat.log2 1 = 0 := by decide
    have hExponent : exponent m 1 = Nat.log2 m := by
      rw [exponent, hOne, Int.natCast_zero, Int.sub_zero, if_pos hLe]
    have hUp : ((Nat.log2 m : Int) + 1 - significand).toNat = Nat.log2 m + 1 - significand := by omega
    have hDown : (-((Nat.log2 m : Int) + 1 - significand)).toNat = significand - (Nat.log2 m + 1) := by omega
    rw [ofRatio, hExponent]
    rw [hUp, hDown, Nat.one_mul, round, spacing]
    rcases Nat.le_total (Nat.log2 m + 1) significand with hSmall | hLarge
    · have hExact (k : Nat) : divEven k 1 = k := by
        have hMul := divEven_mul Nat.one_pos k
        rwa [Nat.mul_one] at hMul
      rw [Nat.sub_eq_zero_of_le hSmall, Nat.pow_zero, hExact, hExact, Nat.mul_one, Nat.mul_one]
      push_cast
      field_simp
    · rw [Nat.sub_eq_zero_of_le hLarge, Nat.pow_zero, Nat.mul_one, Nat.cast_one, div_one]

theorem ofRat_intCast (a : Int) : ofRat a = ofInt a := by
  have hDen : (a : Rat).den = 1 := rfl
  have hNum : (a : Rat).num = a := rfl
  rw [ofRat, hDen, hNum, ofRatio_one]
  rcases Int.eq_nat_or_neg a with ⟨m, rfl | rfl⟩
  · rw [if_neg (by simp), ofInt_natCast, Int.natAbs_natCast]
    rfl
  · rw [ofInt_neg, Int.natAbs_neg, Int.natAbs_natCast]
    split
    · push_cast
      rfl
    · next hNonneg =>
        have hZero : m = 0 := by
          by_contra hNonzero
          refine hNonneg ?_
          push_cast
          rw [neg_lt_zero]
          exact_mod_cast Nat.pos_of_ne_zero hNonzero
        rw [hZero, round_of_lt (by decide)]
        rfl

/-- So does the conversion of an integer. -/
theorem within_ofInt (a : Int) : Within unit (ofInt a) a := by
  rw [← ofRat_intCast]
  exact within_ofRat a

end Rounding

end Binary64
