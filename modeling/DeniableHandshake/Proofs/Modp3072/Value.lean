import DeniableHandshake.Modp3072.Value
import DeniableHandshake.Proofs.Bytes.Endian
import Mathlib.Data.Nat.Size

/-!
# Group values as numbers

A value and its number determine each other: the magnitude is the shortest form of the number, in however
many bytes it was received. The bits that a value counts are those of the number.
-/
namespace DeniableHandshake.Modp3072.Value

theorem toNat_ofNat (n : Nat) : (ofNat n).toNat = n := ofBigEndian_magnitude n

theorem eq_ofNat_toNat (v : Value) : v = ofNat v.toNat := ext (eq_magnitude_of_minimal v.minimal)

theorem toNat_ofBytes (m : Bytes) : (ofBytes m).toNat = ofBigEndian m := ofBigEndian_stripZeros m

theorem ofBytes_eq_ofNat (m : Bytes) : ofBytes m = ofNat (ofBigEndian m) := by
  rw [← toNat_ofBytes, ← eq_ofNat_toNat]

theorem ofNat_inj {m n : Nat} : ofNat m = ofNat n ↔ m = n := by
  constructor
  · intro h
    rw [← toNat_ofNat m, h, toNat_ofNat]
  · intro h
    rw [h]

theorem isZero_ofNat_iff {n : Nat} : (ofNat n).isZero = true ↔ n = 0 := by
  rw [isZero, List.isEmpty_iff]
  exact magnitude_eq_nil_iff

/-- The highest byte has as many bits as its own number, and each byte after it has eight. -/
theorem size_ofBigEndian_cons {d : UInt8} (hd : d ≠ 0) (ds : Bytes) :
    (ofBigEndian (d :: ds)).size = 8 * ds.length + (d.toNat.log2 + 1) := by
  have hne : d.toNat ≠ 0 := fun h => hd (UInt8.toNat_inj.mp h)
  have hpow : 256 ^ ds.length = 2 ^ (8 * ds.length) := by rw [Nat.pow_mul]
  have hrest := ofBigEndian_lt ds
  rw [ofBigEndian_cons]
  rw [hpow] at hrest ⊢
  apply Nat.le_antisymm
  · rw [Nat.size_le]
    calc d.toNat * 2 ^ (8 * ds.length) + ofBigEndian ds
        < (d.toNat + 1) * 2 ^ (8 * ds.length) := by
          rw [Nat.add_one_mul d.toNat]
          exact Nat.add_lt_add_left hrest _
      _ ≤ 2 ^ (d.toNat.log2 + 1) * 2 ^ (8 * ds.length) := Nat.mul_le_mul_right _ Nat.lt_log2_self
      _ = 2 ^ (8 * ds.length + (d.toNat.log2 + 1)) := by rw [← Nat.pow_add, Nat.add_comm]
  · rw [← Nat.add_assoc, Nat.succ_le_iff, Nat.lt_size]
    calc 2 ^ (8 * ds.length + d.toNat.log2)
        = 2 ^ d.toNat.log2 * 2 ^ (8 * ds.length) := by rw [← Nat.pow_add, Nat.add_comm]
      _ ≤ d.toNat * 2 ^ (8 * ds.length) := Nat.mul_le_mul_right _ (Nat.log2_self_le hne)
      _ ≤ d.toNat * 2 ^ (8 * ds.length) + ofBigEndian ds := Nat.le_add_right _ _

theorem bits_eq_size (v : Value) : v.bits = v.toNat.size := by
  obtain ⟨magnitude, hminimal⟩ := v
  cases magnitude with
  | nil => exact Nat.size_zero.symm
  | cons d ds => exact (size_ofBigEndian_cons (fun h => hminimal (congrArg some h)) ds).symm

end DeniableHandshake.Modp3072.Value
