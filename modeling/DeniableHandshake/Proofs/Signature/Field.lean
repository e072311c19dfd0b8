import DeniableHandshake.Proofs.Arithmetic.Primality
import DeniableHandshake.Proofs.Arithmetic.Residue
import DeniableHandshake.Proofs.Signature.EdwardsGroup
import DeniableHandshake.Signature.Edwards25519
import Mathlib.Tactic.NormNum.Prime

/-!
# The field of Edwards25519

The modulus is prime, `-1` is a square and the coefficient `d` is not, so the addition law of the curve
has no exceptional cases.
-/
namespace DeniableHandshake.Edwards25519

open Residue

def smallPrimes : List Nat :=
  [2, 3, 5, 7, 13, 19, 31, 47, 107, 127, 223, 353, 2437, 4153, 57467, 65147, 75707, 132049, 430751,
    569003, 1923133, 8574133]

def certificates : List Certificate := [
  ⟨31757755568855353, 10, [2, 2, 2, 3, 31, 107, 223, 4153, 430751]⟩,
  ⟨2773320623, 5, [2, 2437, 569003]⟩,
  ⟨72106336199, 7, [2, 13, 2773320623]⟩,
  ⟨1919519569386763, 2, [2, 3, 7, 19, 47, 47, 127, 8574133]⟩,
  ⟨75445702479781427272750846543864801, 7,
    [2, 2, 2, 2, 2, 3, 3, 5, 5, 75707, 72106336199, 1919519569386763]⟩,
  ⟨74058212732561358302231226437062788676166966415465897661863160754340907, 2,
    [2, 3, 353, 57467, 132049, 1923133, 31757755568855353, 75445702479781427272750846543864801]⟩,
  ⟨prime, 2,
    [2, 2, 3, 65147, 74058212732561358302231226437062788676166966415465897661863160754340907]⟩]

theorem prime_of_mem_smallPrimes : ∀ q ∈ smallPrimes, q.Prime := by
  simp only [smallPrimes, List.forall_mem_cons]
  norm_num

theorem prime_prime : prime.Prime := by
  have hcheck : Certificate.checkAll smallPrimes certificates = true := by decide +kernel
  have hlast := List.getLast_mem (l := certificates) (List.cons_ne_nil _ _)
  exact Certificate.prime_of_checkAll prime_of_mem_smallPrimes hcheck _ hlast

instance : Fact prime.Prime := ⟨prime_prime⟩

theorem cast_add (a b : Nat) : (add a b : ZMod prime) = a + b := cast_add_mod a b

theorem cast_sub (a : Nat) {b : Nat} (hb : b ≤ prime) : (sub a b : ZMod prime) = a - b :=
  cast_sub_mod a hb

theorem cast_mul (a b : Nat) : (mul a b : ZMod prime) = a * b := cast_mul_mod a b

theorem mul_lt (a b : Nat) : mul a b < prime := Nat.mod_lt _ prime_prime.pos

theorem sub_lt (a b : Nat) : sub a b < prime := Nat.mod_lt _ prime_prime.pos

theorem cast_inv (a : Nat) : (inv a : ZMod prime) = (a : ZMod prime)⁻¹ :=
  cast_modPow_sub_two (by decide) a

theorem cast_two_ne_zero : (2 : ZMod prime) ≠ 0 := two_ne_zero_of_lt (by decide)

theorem sqrtMinusOne_sq : (sqrtMinusOne : ZMod prime) ^ 2 = -1 := by
  have hsq : mul sqrtMinusOne sqrtMinusOne = sub 0 1 := by decide +kernel
  have hcast := congrArg (Nat.cast : ℕ → ZMod prime) hsq
  rw [cast_mul, cast_sub 0 prime_prime.one_le, Nat.cast_zero, Nat.cast_one, zero_sub] at hcast
  rw [pow_two, hcast]

/-- By Euler's criterion. -/
theorem sq_ne_d (z : ZMod prime) : z ^ 2 ≠ d := by
  intro h
  have hpower : modPow d ((prime - 1) / 2) prime ≠ 1 := by decide +kernel
  have hz : z ≠ 0 := by
    intro hzero
    rw [hzero, zero_pow (by decide)] at h
    exact cast_ne_zero_of_lt (p := prime) (by decide) (by decide) h.symm
  have hhalf : 2 * ((prime - 1) / 2) = prime - 1 := by decide
  have hcast : (modPow d ((prime - 1) / 2) prime : ZMod prime) = (1 : ℕ) := by
    rw [cast_modPow, ← h, ← pow_mul, hhalf, ZMod.pow_card_sub_one_eq_one hz, Nat.cast_one]
  exact hpower (cast_inj_of_lt (modPow_lt _ _ prime_prime.pos) prime_prime.one_lt hcast)

instance : CompleteEdwards (d : ZMod prime) where
  two_ne_zero := cast_two_ne_zero
  exists_sq_eq_neg_one := ⟨sqrtMinusOne, sqrtMinusOne_sq⟩
  sq_ne := sq_ne_d

end DeniableHandshake.Edwards25519
