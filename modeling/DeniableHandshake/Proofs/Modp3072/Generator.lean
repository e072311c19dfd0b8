import DeniableHandshake.Proofs.Arithmetic.Primality
import DeniableHandshake.Proofs.Arithmetic.Residue
import DeniableHandshake.Proofs.Bytes.Endian
import DeniableHandshake.Proofs.Modp3072.Keypair

/-!
# The powers of the generator

The powers of the generator are reduced, are not zero and are not minus one, because the order of the
subgroup is odd. So a power is a valid public value unless it is one.
-/
namespace DeniableHandshake.Modp3072
open Residue

theorem one_lt_prime : 1 < prime := by decide

theorem two_lt_prime : 2 < prime := by decide

theorem prime_lt_bytes : prime < 256 ^ width := by decide +kernel

theorem power_lt (b e : Nat) : power b e < prime := modPow_lt b e (Nat.zero_lt_of_lt one_lt_prime)

theorem power_eq_one_iff {b e : Nat} : power b e = 1 ↔ (b : ZMod prime) ^ e = 1 :=
  (Certificate.cast_pow_eq_one_iff one_lt_prime b e).symm

theorem odd_order : Odd order := by decide

variable {x : Nat}

theorem cast_power_generator_pow_order (x : Nat) : (power generator x : ZMod prime) ^ order = 1 :=
  power_eq_one_iff.mp (power_power_eq_one power_generator_order x)

theorem power_generator_ne_zero : power generator x ≠ 0 := by
  intro h
  have hpow := cast_power_generator_pow_order x
  have hpositive : order ≠ 0 := by decide
  rw [h, Nat.cast_zero, zero_pow hpositive] at hpow
  have hone : ((1 : ℕ) : ZMod prime) ≠ 0 := cast_ne_zero_of_lt one_lt_prime (by decide)
  exact hone (Nat.cast_one.trans hpow.symm)

theorem power_generator_ne_prime_sub_one : power generator x ≠ prime - 1 := by
  intro h
  have hpow := cast_power_generator_pow_order x
  rw [h, Nat.cast_sub one_lt_prime.le, Nat.cast_one, ZMod.natCast_self, zero_sub,
    odd_order.neg_one_pow] at hpow
  have htwo : (2 : ZMod prime) = 0 := by linear_combination -hpow
  exact two_ne_zero_of_lt two_lt_prime htwo

theorem Value.isValid_ofNat_power_iff :
    (Value.ofNat (power generator x)).isValid = true ↔ power generator x ≠ 1 := by
  constructor
  · intro hvalid hone
    simp only [isValid, Value.toNat_ofNat, Bool.and_eq_true, decide_eq_true_eq] at hvalid
    obtain ⟨⟨⟨-, hlow⟩, -⟩, -⟩ := hvalid
    omega
  · intro hone
    have hzero := power_generator_ne_zero (x := x)
    have hminus := power_generator_ne_prime_sub_one (x := x)
    have hlt := power_lt generator x
    exact isValid_ofNat_power (length_magnitude_le (hlt.trans prime_lt_bytes)) (by omega) (by omega)

theorem Keypair.isValid_ofExponent_iff {x : Block exponentSize} :
    (ofExponent x).value.isValid = true ↔ power generator (ofBigEndian x.toList) ≠ 1 :=
  Value.isValid_ofNat_power_iff

end DeniableHandshake.Modp3072
