import DeniableHandshake.Bytes.Endian
import Mathlib.Algebra.Group.Nat.Defs

/-!
# Values of byte strings and powers of 256

Writing a number in `w` bytes keeps its residue modulo `256 ^ w`, and what is read from `w` bytes is
below that power.
-/
namespace DeniableHandshake

theorem ofLittleEndian_toLittleEndian (w n : Nat) :
    ofLittleEndian (toLittleEndian w n) = n % 256 ^ w := by
  induction w generalizing n with
  | zero => simp [toLittleEndian, ofLittleEndian, Nat.mod_one]
  | succ w ih =>
    rw [toLittleEndian, ofLittleEndian, ih, toNat_ofNat_byte, Nat.pow_succ', Nat.mod_mul]

theorem ofBigEndian_toBigEndian (w n : Nat) : ofBigEndian (toBigEndian w n) = n % 256 ^ w := by
  rw [ofBigEndian, toBigEndian, List.reverse_reverse, ofLittleEndian_toLittleEndian]

theorem toBigEndian_inj {w m n : Nat} (hm : m < 256 ^ w) (hn : n < 256 ^ w) :
    toBigEndian w m = toBigEndian w n ↔ m = n := by
  constructor
  · intro h
    have hvalue := congrArg ofBigEndian h
    rwa [ofBigEndian_toBigEndian, ofBigEndian_toBigEndian, Nat.mod_eq_of_lt hm,
      Nat.mod_eq_of_lt hn] at hvalue
  · intro h
    rw [h]

theorem Block.toList_bigEndian (w n : Nat) : (bigEndian w n).toList = toBigEndian w n := rfl

theorem ofLittleEndian_append (b c : Bytes) :
    ofLittleEndian (b ++ c) = ofLittleEndian b + 256 ^ b.length * ofLittleEndian c := by
  induction b with
  | nil => simp [ofLittleEndian]
  | cons d ds ih =>
    rw [List.cons_append, ofLittleEndian, ih, ofLittleEndian, List.length_cons, Nat.pow_succ', Nat.mul_add,
      Nat.mul_assoc, Nat.add_assoc]

/-- The first byte of a big-endian string is its highest digit. -/
theorem ofBigEndian_cons (d : UInt8) (ds : Bytes) :
    ofBigEndian (d :: ds) = d.toNat * 256 ^ ds.length + ofBigEndian ds := by
  rw [ofBigEndian, List.reverse_cons, ofLittleEndian_append, List.length_reverse, ofLittleEndian,
    ofLittleEndian, ofBigEndian, Nat.mul_zero, Nat.add_zero, Nat.mul_comm, Nat.add_comm]

theorem ofLittleEndian_lt (b : Bytes) : ofLittleEndian b < 256 ^ b.length := by
  induction b with
  | nil => exact Nat.one_pos
  | cons d ds ih =>
    have hd := d.toNat_lt
    rw [ofLittleEndian, List.length_cons, Nat.pow_succ]
    omega

theorem ofBigEndian_lt (b : Bytes) : ofBigEndian b < 256 ^ b.length := by
  rw [ofBigEndian, ← List.length_reverse]
  exact ofLittleEndian_lt b.reverse

theorem ofBigEndian_lt_of_length {w : Nat} {b : Bytes} (h : b.length = w) :
    ofBigEndian b < 256 ^ w := h ▸ ofBigEndian_lt b

theorem ofLittleEndian_replicate_zero (w : Nat) : ofLittleEndian (List.replicate w 0) = 0 := by
  induction w with
  | zero => rfl
  | succ w ih =>
    rw [List.replicate_succ, ofLittleEndian, ih]
    rfl

theorem Block.ofBigEndian_eq_zero_iff {w : Nat} {b : Block w} :
    ofBigEndian b.toList = 0 ↔ b = zero w := by
  have hzero : ofBigEndian (zero w).toList = 0 := by
    rw [ofBigEndian, zero, List.reverse_replicate, ofLittleEndian_replicate_zero]
  constructor
  · intro h
    apply ext
    rw [← toBigEndian_ofBigEndian_of_length b.length_toList, h, ← hzero,
      toBigEndian_ofBigEndian_of_length (zero w).length_toList]
  · rintro rfl
    exact hzero

theorem length_byteDigits_le {w n : Nat} (h : n < 256 ^ w) : (byteDigits n).length ≤ w := by
  induction w generalizing n with
  | zero =>
    obtain rfl : n = 0 := Nat.lt_one_iff.mp h
    rw [byteDigits_zero]
    exact Nat.le_refl 0
  | succ w ih =>
    by_cases hn : n = 0
    · rw [hn, byteDigits_zero]
      exact Nat.zero_le (w + 1)
    · rw [byteDigits_of_ne_zero hn, List.length_cons]
      rw [Nat.pow_succ] at h
      exact Nat.succ_le_succ (ih (Nat.div_lt_of_lt_mul (by omega)))

theorem length_magnitude_le {w n : Nat} (h : n < 256 ^ w) : (magnitude n).length ≤ w := by
  rw [magnitude, List.length_reverse]
  exact length_byteDigits_le h

theorem length_magnitude_le_iff {w n : Nat} : (magnitude n).length ≤ w ↔ n < 256 ^ w := by
  constructor
  · intro h
    have hlt := ofBigEndian_lt (magnitude n)
    rw [ofBigEndian_magnitude] at hlt
    exact Nat.lt_of_lt_of_le hlt (Nat.pow_le_pow_right (by decide) h)
  · exact length_magnitude_le

theorem magnitude_eq_nil_iff {n : Nat} : magnitude n = [] ↔ n = 0 := by
  rw [magnitude, List.reverse_eq_nil_iff, byteDigits_eq_nil_iff]

/-! ## Zero bytes in front -/

theorem ofLittleEndian_append_replicate (b : Bytes) (k : Nat) :
    ofLittleEndian (b ++ List.replicate k 0) = ofLittleEndian b := by
  rw [ofLittleEndian_append, ofLittleEndian_replicate_zero, Nat.mul_zero, Nat.add_zero]

theorem ofBigEndian_replicate_append (k : Nat) (b : Bytes) :
    ofBigEndian (List.replicate k 0 ++ b) = ofBigEndian b := by
  rw [ofBigEndian, List.reverse_append, List.reverse_replicate, ofLittleEndian_append_replicate,
    ofBigEndian]

theorem ofBigEndian_stripZeros (b : Bytes) : ofBigEndian (stripZeros b) = ofBigEndian b := by
  obtain ⟨k, hk⟩ := exists_eq_replicate_append_stripZeros b
  rw [← ofBigEndian_replicate_append k, ← hk]

/-- In `w` bytes, the shortest form is filled up with zeros from the left. -/
theorem toBigEndian_eq_replicate_append {w n : Nat} (h : n < 256 ^ w) :
    toBigEndian w n = List.replicate (w - (magnitude n).length) 0 ++ magnitude n := by
  have hlength : (List.replicate (w - (magnitude n).length) 0 ++ magnitude n).length = w := by
    rw [List.length_append, List.length_replicate]
    exact Nat.sub_add_cancel (length_magnitude_le h)
  have hvalue := toBigEndian_ofBigEndian_of_length hlength
  rwa [ofBigEndian_replicate_append, ofBigEndian_magnitude] at hvalue

theorem eq_magnitude_of_minimal {b : Bytes} (h : b.head? ≠ some 0) : b = magnitude (ofBigEndian b) := by
  have hpadded := toBigEndian_eq_replicate_append (ofBigEndian_lt b)
  rw [toBigEndian_ofBigEndian] at hpadded
  have hself : stripZeros b = b := stripZeros_replicate_append 0 h
  have hstrip := congrArg stripZeros hpadded
  rwa [hself, stripZeros_replicate_append _ (head?_magnitude_ne_zero _)] at hstrip

/-! ## Bits above a number -/

theorem add_shiftLeft_mod {y k : Nat} (hy : y < 1 <<< k) (b : Nat) :
    (y + b <<< k) % (1 <<< k) = y := by
  rw [Nat.one_shiftLeft] at hy ⊢
  rw [Nat.shiftLeft_eq, Nat.add_mul_mod_self_right, Nat.mod_eq_of_lt hy]

theorem add_shiftLeft_shiftRight {y k : Nat} (hy : y < 1 <<< k) (b : Nat) :
    (y + b <<< k) >>> k = b := by
  rw [Nat.one_shiftLeft] at hy
  rw [Nat.shiftLeft_eq, Nat.shiftRight_eq_div_pow, Nat.add_mul_div_right _ _ (Nat.two_pow_pos k),
    Nat.div_eq_of_lt hy, Nat.zero_add]

end DeniableHandshake
