import Mathlib.Algebra.Order.Ring.Nat

/-! Natural numbers as bytes, in a number of bytes that is fixed and in either order. What
does not fit is cut off. -/

/-- The order of the bytes of a machine word in memory. -/
inductive ByteOrder where
  | littleEndian
  | bigEndian
  deriving DecidableEq, Repr

namespace ByteOrder

/-- The lowest `width` bytes of the value, the lowest first. -/
def lowFirst : Nat → Nat → List UInt8
  | 0, _ => []
  | width + 1, value => UInt8.ofNat value :: lowFirst width (value / 256)

/-- The number whose base-256 digits these are, the lowest first. -/
def ofLowFirst : List UInt8 → Nat
  | [] => 0
  | byte :: rest => byte.toNat + 256 * ofLowFirst rest

/-- A number as so many bytes of memory. -/
def put : ByteOrder → Nat → Nat → List UInt8
  | .littleEndian, width, value => lowFirst width value
  | .bigEndian, width, value => (lowFirst width value).reverse

/-- The number that bytes of memory hold. -/
def get : ByteOrder → List UInt8 → Nat
  | .littleEndian, bytes => ofLowFirst bytes
  | .bigEndian, bytes => ofLowFirst bytes.reverse

variable {order other : ByteOrder} {width low high value : Nat} {bytes bytes' : List UInt8}

theorem length_lowFirst : (lowFirst width value).length = width := by
  induction width generalizing value with
  | zero => rfl
  | succ width ih => simp [lowFirst, ih]

@[simp] theorem length_put : (order.put width value).length = width := by
  cases order with
  | littleEndian => exact length_lowFirst
  | bigEndian => simp [put, length_lowFirst]

theorem ofLowFirst_lowFirst (h : value < 256 ^ width) : ofLowFirst (lowFirst width value) = value := by
  induction width generalizing value with
  | zero =>
      have hZero : value = 0 := by simpa using h
      rw [hZero]
      rfl
  | succ width ih =>
      have hHigh : value / 256 < 256 ^ width := by
        apply (Nat.div_lt_iff_lt_mul (by omega)).mpr
        rwa [Nat.pow_succ] at h
      rw [lowFirst, ofLowFirst, ih hHigh, UInt8.toNat_ofNat']
      exact Nat.mod_add_div value 256

theorem ofLowFirst_lt : ofLowFirst bytes < 256 ^ bytes.length := by
  induction bytes with
  | nil => exact Nat.one_pos
  | cons byte rest ih =>
      have hByte := byte.toNat_lt
      rw [ofLowFirst, List.length_cons, Nat.pow_succ]
      omega

theorem get_put_lt : littleEndian.get (order.put width value) < 256 ^ width := by
  have hLess := @ofLowFirst_lt (order.put width value)
  rwa [length_put] at hLess

/-- A value that fits is read back in the order in which it was written. -/
theorem get_put (h : value < 256 ^ width) : order.get (order.put width value) = value := by
  cases order with
  | littleEndian => exact ofLowFirst_lowFirst h
  | bigEndian =>
      rw [get, put, List.reverse_reverse]
      exact ofLowFirst_lowFirst h

theorem lowFirst_ofLowFirst : lowFirst bytes.length (ofLowFirst bytes) = bytes := by
  induction bytes with
  | nil => rfl
  | cons byte rest ih =>
      have hByte := byte.toNat_lt
      have hRest : (byte.toNat + 256 * ofLowFirst rest) / 256 = ofLowFirst rest := by omega
      have hFirst : UInt8.ofNat (byte.toNat + 256 * ofLowFirst rest) = byte := by
        apply UInt8.toNat_inj.mp
        rw [UInt8.toNat_ofNat']
        omega
      rw [List.length_cons, ofLowFirst, lowFirst, hRest, hFirst, ih]

/-- Bytes of the same number are the same bytes if there are as many of them. -/
theorem eq_of_ofLowFirst (hLength : bytes.length = bytes'.length) (h : ofLowFirst bytes = ofLowFirst bytes') :
    bytes = bytes' := by
  rw [← @lowFirst_ofLowFirst bytes, hLength, h, lowFirst_ofLowFirst]

/-- The other order is the right one only for a value whose bytes are the same in both. -/
theorem get_put_iff (h : value < 256 ^ width) :
    littleEndian.get (order.put width value) = value ↔
      order = littleEndian ∨ bigEndian.put width value = littleEndian.put width value := by
  cases order with
  | littleEndian => exact iff_of_true (get_put h) (Or.inl rfl)
  | bigEndian =>
      rw [or_iff_right nofun]
      constructor
      · intro hValue
        apply eq_of_ofLowFirst (length_put.trans length_put.symm)
        exact hValue.trans (@get_put littleEndian _ _ h).symm
      · intro hSame
        rw [hSame]
        exact get_put h

theorem lowFirst_add : lowFirst (low + high) value = lowFirst low value ++ lowFirst high (value / 256 ^ low) := by
  induction low generalizing value with
  | zero => simp [lowFirst]
  | succ low ih =>
      have hDiv : value / 256 / 256 ^ low = value / 256 ^ (low + 1) := by
        rw [Nat.div_div_eq_div_mul, Nat.pow_succ']
      rw [Nat.add_right_comm, lowFirst, ih, hDiv, lowFirst, List.cons_append]

theorem lowFirst_zero : lowFirst width 0 = List.replicate width 0 := by
  induction width with
  | zero => rfl
  | succ width ih =>
      rw [lowFirst, ih]
      rfl

/-- The first bytes of a number are those of the number cut off. -/
theorem take_littleEndian : (littleEndian.put (low + high) value).take low = littleEndian.put low value := by
  rw [put, put, lowFirst_add, List.take_left' length_lowFirst]

/-- The first bytes of a small number are 0. -/
theorem take_bigEndian (h : value < 256 ^ low) :
    (bigEndian.put (low + high) value).take high = List.replicate high 0 := by
  rw [put, lowFirst_add, List.reverse_append, List.take_left' (by simp [length_lowFirst]), Nat.div_eq_of_lt h,
    lowFirst_zero, List.reverse_replicate]

theorem ofLowFirst_replicate : ofLowFirst (List.replicate width 0) = 0 := by
  induction width with
  | zero => rfl
  | succ width ih => simp [List.replicate_succ, ofLowFirst, ih]

end ByteOrder
