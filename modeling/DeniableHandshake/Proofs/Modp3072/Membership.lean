import DeniableHandshake.Proofs.Modp3072.Primality
import Mathlib.NumberTheory.LegendreSymbol.Basic
import Mathlib.RingTheory.RootsOfUnity.PrimitiveRoots

/-!
# Membership in the subgroup

The values that are accepted are the powers of the generator other than one, and these are the squares
modulo the prime from 2 to `p - 2`. A value is judged by its number alone, in whatever number of bytes
it was received.
-/
namespace DeniableHandshake.Modp3072
open Residue

namespace Value

variable {v : Value}

/-- The bound on the width says nothing beyond the bound on the number. -/
theorem isValid_iff : v.isValid = true ↔ 2 ≤ v.toNat ∧ v.toNat ≤ prime - 2 ∧ power v.toNat order = 1 := by
  have hwidth (h : v.toNat < prime - 1) : v.magnitude.length ≤ width := by
    have hlt : v.toNat < prime := h.trans_le (Nat.sub_le prime 1)
    rw [eq_ofNat_toNat v]
    exact length_magnitude_le (hlt.trans prime_lt_bytes)
  have hbound : v.toNat < prime - 1 ↔ v.toNat ≤ prime - 2 := by
    have := one_lt_prime
    omega
  simp only [isValid, Bool.and_eq_true, decide_eq_true_eq, beq_iff_eq, hbound] at hwidth ⊢
  constructor
  · rintro ⟨⟨⟨-, hlow⟩, hhigh⟩, hmember⟩
    exact ⟨hlow, hhigh, hmember⟩
  · rintro ⟨hlow, hhigh, hmember⟩
    exact ⟨⟨⟨hwidth hhigh, hlow⟩, hhigh⟩, hmember⟩

end Value

/-! ### Powers of the generator that are one -/

theorem power_generator_eq_one_iff {x : Nat} : power generator x = 1 ↔ order ∣ x := by
  rw [power_eq_one_iff, ← orderOf_dvd_iff_pow_eq_one, orderOf_generator]

theorem power_generator_ne_one {x : Nat} (hpos : 0 < x) (hx : x < order) : power generator x ≠ 1 :=
  fun h => absurd (Nat.le_of_dvd hpos (power_generator_eq_one_iff.mp h)) (Nat.not_le.mpr hx)

namespace Keypair

theorem exponent_lt_order (x : Block exponentSize) : ofBigEndian x.toList < order := by
  have hlt := ofBigEndian_lt_of_length x.length_toList
  exact hlt.trans (by decide)

/-- The order is longer than any exponent. -/
theorem power_exponent_eq_one_iff {x : Block exponentSize} :
    power generator (ofBigEndian x.toList) = 1 ↔ x = .zero exponentSize := by
  rw [power_generator_eq_one_iff, ← Block.ofBigEndian_eq_zero_iff]
  constructor
  · intro hdvd
    exact Nat.eq_zero_of_dvd_of_lt hdvd (exponent_lt_order x)
  · intro hzero
    rw [hzero]
    exact dvd_zero order

end Keypair

/-! ### The subgroup -/

theorem exists_power_of_power_order {y : Nat} (hy : y < prime) (h : power y order = 1) :
    ∃ k < order, y = power generator k := by
  have hroot : IsPrimitiveRoot (generator : ZMod prime) order :=
    IsPrimitiveRoot.iff_orderOf.mpr orderOf_generator
  have : NeZero order := ⟨prime_order.ne_zero⟩
  obtain ⟨k, hk, hpower⟩ := hroot.eq_pow_of_pow_eq_one (power_eq_one_iff.mp h)
  refine ⟨k, hk, cast_inj_of_lt hy (power_lt generator k) ?_⟩
  rw [power, cast_modPow, hpower]

theorem power_order_eq_one_iff {y : Nat} (hy : y < prime) (hne : y ≠ 0) :
    power y order = 1 ↔ IsSquare (y : ZMod prime) := by
  have hhalf : prime / 2 = order := by decide
  rw [ZMod.euler_criterion prime (cast_ne_zero_of_lt hy hne), hhalf, power_eq_one_iff]

namespace Value

theorem isValid_iff_exists_power {v : Value} :
    v.isValid = true ↔ ∃ k, 0 < k ∧ k < order ∧ v.toNat = power generator k := by
  constructor
  · intro h
    obtain ⟨hlow, hhigh, hmember⟩ := isValid_iff.mp h
    have hlt : v.toNat < prime := by
      have := one_lt_prime
      omega
    obtain ⟨k, hk, hpower⟩ := exists_power_of_power_order hlt hmember
    refine ⟨k, Nat.pos_of_ne_zero ?_, hk, hpower⟩
    rintro rfl
    have hone : power generator 0 = 1 := power_generator_eq_one_iff.mpr (dvd_zero _)
    omega
  · rintro ⟨k, hpos, hk, hpower⟩
    rw [eq_ofNat_toNat v, hpower]
    exact isValid_ofNat_power_iff.mpr (power_generator_ne_one hpos hk)

theorem isValid_iff_isSquare {v : Value} :
    v.isValid = true ↔ 2 ≤ v.toNat ∧ v.toNat ≤ prime - 2 ∧ IsSquare (v.toNat : ZMod prime) := by
  rw [isValid_iff]
  refine and_congr_right fun hlow => and_congr_right fun hhigh => ?_
  have := one_lt_prime
  exact power_order_eq_one_iff (by omega) (by omega)

/-- Membership is exact, for byte strings of any length: the modulus and the order are prime
(`prime_prime`, `prime_order`). -/
theorem isValid_ofBytes_iff (m : Bytes) :
    ((ofBytes m).isValid = true ↔ ∃ k, 0 < k ∧ k < order ∧ ofBigEndian m = generator ^ k % prime) ∧
      ((ofBytes m).isValid = true ↔ 2 ≤ ofBigEndian m ∧ ofBigEndian m ≤ prime - 2 ∧
        IsSquare (ofBigEndian m : ZMod prime)) ∧
      (ofBigEndian m = 0 ∨ ofBigEndian m = 1 ∨ ofBigEndian m = prime - 1 ∨ prime ≤ ofBigEndian m ∨
        ¬ IsSquare (ofBigEndian m : ZMod prime) → (ofBytes m).isValid = false) := by
  have hpower := isValid_iff_exists_power (v := ofBytes m)
  have hsquare := isValid_iff_isSquare (v := ofBytes m)
  simp only [toNat_ofBytes, power, modPow_eq] at hpower hsquare
  refine ⟨hpower, hsquare, fun hrejected => ?_⟩
  rw [← Bool.not_eq_true, hsquare]
  rintro ⟨hlow, hhigh, hmember⟩
  have := one_lt_prime
  rcases hrejected with hzero | hone | hminus | hlarge | hnonresidue
  · omega
  · omega
  · omega
  · omega
  · exact hnonresidue hmember

end Value

end DeniableHandshake.Modp3072
