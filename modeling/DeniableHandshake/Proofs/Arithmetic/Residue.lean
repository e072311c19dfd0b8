import DeniableHandshake.Proofs.Arithmetic.ModularPower
import Mathlib.FieldTheory.Finite.Basic

/-!
# Reduced arithmetic as field arithmetic

Sums, differences, products and powers that are reduced modulo a number are cast to the operations of
the residue ring, and reduced numbers are told apart by their casts.
-/
namespace DeniableHandshake.Residue

variable {p : Nat}

theorem cast_add_mod (a b : Nat) : ((a + b) % p : ℕ) = (a + b : ZMod p) := by
  rw [ZMod.natCast_mod, Nat.cast_add]

theorem cast_sub_mod (a : Nat) {b : Nat} (hb : b ≤ p) :
    ((a + (p - b)) % p : ℕ) = (a - b : ZMod p) := by
  rw [ZMod.natCast_mod, Nat.cast_add, Nat.cast_sub hb, ZMod.natCast_self, zero_sub, sub_eq_add_neg]

theorem cast_mul_mod (a b : Nat) : (a * b % p : ℕ) = (a * b : ZMod p) := by
  rw [ZMod.natCast_mod, Nat.cast_mul]

theorem cast_modPow (a e : Nat) : (modPow a e p : ZMod p) = (a : ZMod p) ^ e := by
  rw [modPow_eq, ZMod.natCast_mod, Nat.cast_pow]

theorem cast_inj_of_lt {a b : Nat} (ha : a < p) (hb : b < p) (h : (a : ZMod p) = b) : a = b := by
  have hmod := (ZMod.natCast_eq_natCast_iff' a b p).mp h
  rwa [Nat.mod_eq_of_lt ha, Nat.mod_eq_of_lt hb] at hmod

theorem eq_val_of_cast {a : Nat} {z : ZMod p} (ha : a < p) (h : (a : ZMod p) = z) : a = z.val := by
  rw [← h, ZMod.val_cast_of_lt ha]

theorem cast_ne_zero_of_lt {a : Nat} (ha : a < p) (h : a ≠ 0) : (a : ZMod p) ≠ 0 := by
  intro hcast
  exact h (cast_inj_of_lt ha (Nat.zero_lt_of_lt ha) (hcast.trans Nat.cast_zero.symm))

theorem two_ne_zero_of_lt (hp : 2 < p) : (2 : ZMod p) ≠ 0 := by
  have htwo : ((2 : ℕ) : ZMod p) ≠ 0 := cast_ne_zero_of_lt hp (by decide)
  exact_mod_cast htwo

/-- A power with exponent `p - 2` is an inverse, and zero for zero. -/
theorem cast_modPow_sub_two [Fact p.Prime] (hp : 2 < p) (a : Nat) :
    (modPow a (p - 2) p : ZMod p) = (a : ZMod p)⁻¹ := by
  rw [cast_modPow]
  by_cases ha : (a : ZMod p) = 0
  · rw [ha, inv_zero]
    exact zero_pow (by omega)
  · have hexponent : p - 2 + 1 = p - 1 := by omega
    apply eq_inv_of_mul_eq_one_left
    rw [← pow_succ, hexponent]
    exact ZMod.pow_card_sub_one_eq_one ha

end DeniableHandshake.Residue
