import DeniableHandshake.Curve448.Ladder
import DeniableHandshake.Proofs.Arithmetic.Primality
import DeniableHandshake.Proofs.Arithmetic.Residue
import Mathlib.Tactic.NormNum.Prime

/-!
# The field of Curve448

The modulus is prime, so the residues on which the ladder computes form a field, and its last step,
a power with exponent `p - 2`, is a division.
-/
namespace DeniableHandshake.Curve448

open Residue

def smallPrimes : List Nat :=
  [2, 3, 5, 7, 13, 19, 31, 37, 61, 67, 151, 197, 223, 271, 463, 641, 2531, 2683, 6197, 18287, 116989,
    196687, 217003, 379979, 411743, 1466449, 1609403, 2916841, 6700417, 36753053]

def certificates : List Certificate := [
  ⟨3402277943, 5, [2, 7, 151, 1609403]⟩,
  ⟨1469495262398780123809, 17, [2, 2, 2, 2, 2, 3, 7, 7, 223, 411743, 3402277943]⟩,
  ⟨97859369123353, 5, [2, 2, 2, 3, 3, 67, 197, 271, 379979]⟩,
  ⟨167773885276849215533569, 17,
    [2, 2, 2, 2, 2, 2, 2, 2, 2, 3, 3, 3, 7, 7, 2531, 97859369123353]⟩,
  ⟨1764234391, 3, [2, 3, 5, 271, 217003]⟩,
  ⟨34741861125639557, 13, [2, 2, 7, 7, 7, 31, 463, 1764234391]⟩,
  ⟨36131535570665139281, 3, [2, 2, 2, 2, 5, 13, 34741861125639557]⟩,
  ⟨596242599987116128415063, 5, [2, 37, 223, 36131535570665139281]⟩,
  ⟨1255525949, 2, [2, 2, 2683, 116989]⟩,
  ⟨1335912079, 6, [2, 3, 19, 31, 61, 6197]⟩,
  ⟨32061889897, 10, [2, 2, 2, 3, 1335912079]⟩,
  ⟨25136521679249, 3, [2, 2, 2, 2, 7, 7, 32061889897]⟩,
  ⟨37414057161322375957408148834323969, 23,
    [2, 2, 2, 2, 2, 2, 2, 2, 2, 3, 3, 7, 36753053, 1255525949, 25136521679249]⟩,
  ⟨prime, 7,
    [2, 641, 18287, 196687, 1466449, 2916841, 6700417, 1469495262398780123809,
      167773885276849215533569, 596242599987116128415063, 37414057161322375957408148834323969]⟩]

theorem prime_of_mem_smallPrimes : ∀ q ∈ smallPrimes, q.Prime := by
  simp only [smallPrimes, List.forall_mem_cons]
  norm_num

theorem prime_prime : prime.Prime := by
  have hcheck : Certificate.checkAll smallPrimes certificates = true := by decide +kernel
  have hlast := List.getLast_mem (l := certificates) (List.cons_ne_nil _ _)
  exact Certificate.prime_of_checkAll prime_of_mem_smallPrimes hcheck _ hlast

instance : Fact prime.Prime := ⟨prime_prime⟩

theorem cast_two_ne_zero : (2 : ZMod prime) ≠ 0 := two_ne_zero_of_lt (by decide)

theorem cast_coefficient_sq_ne_four : (coefficient : ZMod prime) ^ 2 ≠ 4 := by
  intro h
  have hfour : coefficient ^ 2 = 4 := cast_inj_of_lt (p := prime) (by decide) (by decide) (by exact_mod_cast h)
  revert hfour
  decide

namespace Ladder

theorem cast_add (a b : Nat) : (add a b : ZMod prime) = a + b := cast_add_mod a b

theorem cast_sub (a : Nat) {b : Nat} (hb : b ≤ prime) : (sub a b : ZMod prime) = a - b :=
  cast_sub_mod a hb

theorem cast_mul (a b : Nat) : (mul a b : ZMod prime) = a * b := cast_mul_mod a b

theorem mul_lt (a b : Nat) : mul a b < prime := Nat.mod_lt _ prime_prime.pos

end Ladder

end DeniableHandshake.Curve448
