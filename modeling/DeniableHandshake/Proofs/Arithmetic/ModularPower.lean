import DeniableHandshake.Arithmetic.ModularPower
import Mathlib.Algebra.Group.Nat.Defs

/-!
# The value of a modular power

Repeated squaring gives the power reduced once at the end. Read from the highest bit of the exponent
down, it is a recursion on the number of bits, which evaluates fast also for exponents of thousands of
bits.
-/
namespace DeniableHandshake

theorem modPow_eq (b e m : Nat) : modPow b e m = b ^ e % m := by
  induction e using Nat.strongRecOn generalizing b with
  | ind e ih =>
    by_cases he : e = 0
    · rw [he, modPow_zero, Nat.pow_zero]
    · rw [modPow, if_neg he]
      simp only [ih (e / 2) (by omega), ← Nat.pow_mod, ← Nat.pow_two, ← Nat.pow_mul]
      by_cases ho : e % 2 = 1
      · rw [if_pos ho, Nat.mul_mod_mod, Nat.mul_comm, ← Nat.pow_succ]
        congr 2
        omega
      · rw [if_neg ho]
        congr 2
        omega

theorem modPow_lt (b e : Nat) {m : Nat} (hm : 0 < m) : modPow b e m < m := by
  rw [modPow_eq]
  exact Nat.mod_lt _ hm

/-- The power that `value` becomes when `n` more bits of the exponent are read. -/
def powBits (b e m : Nat) : Nat → Nat → Nat
  | 0, value => value
  | n + 1, value =>
    powBits b e m n (if e.testBit n then b * (value * value % m) % m else value * value % m)

theorem powBits_eq (b e m n : Nat) : powBits b e m n (b ^ (e >>> n) % m) = b ^ e % m := by
  induction n with
  | zero => rfl
  | succ n ih =>
    have hbit : e >>> n = 2 * (e >>> (n + 1)) + (e.testBit n).toNat := by
      rw [Nat.shiftRight_succ, Nat.toNat_testBit, ← Nat.shiftRight_eq_div_pow]
      omega
    have hsquare : b ^ (e >>> (n + 1)) % m * (b ^ (e >>> (n + 1)) % m) % m =
        b ^ (2 * (e >>> (n + 1))) % m := by
      rw [← Nat.mul_mod, ← Nat.pow_add, Nat.two_mul]
    rw [powBits, ← ih, hbit, hsquare]
    cases e.testBit n with
    | false => rfl
    | true =>
      rw [if_pos rfl, Nat.mul_mod_mod, Nat.mul_comm, ← Nat.pow_succ]
      rfl

theorem modPow_eq_powBits (b m : Nat) {e n : Nat} (he : e >>> n = 0) :
    modPow b e m = powBits b e m n (1 % m) := by
  have h := powBits_eq b e m n
  rw [he, Nat.pow_zero] at h
  rw [h, modPow_eq]

end DeniableHandshake
