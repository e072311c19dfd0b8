import DeniableHandshake.Proofs.Bytes.Endian
import DeniableHandshake.Proofs.Signature.Edwards25519

/-!
# Encodings of points

An encoding depends on the point alone, not on its coordinates, and decoding it gives the point back.
The first coordinate is recovered as a square root, one of two that differ in parity.
-/
namespace DeniableHandshake.Edwards25519

open Residue

namespace Point

/-! ## Square roots -/

section SquareRoot

variable {u v r : Nat} {x : ZMod prime}

theorem square_pow_quarter {z : ZMod prime} (hz : z ≠ 0) :
    (z ^ 2) ^ ((prime - 1) / 4) = 1 ∨ (z ^ 2) ^ ((prime - 1) / 4) = -1 := by
  have hexponent : 2 * ((prime - 1) / 4 * 2) = prime - 1 := by decide
  apply sq_eq_one_iff.mp
  rw [← pow_mul, ← pow_mul, hexponent, ZMod.pow_card_sub_one_eq_one hz]

/-- The candidate is a square root of the quotient or of its negative. -/
theorem sq_candidate (hu : v * x ^ 2 = u) {z : ZMod prime}
    (hz : z = u * v ^ 3 * (u * v ^ 7) ^ ((prime - 5) / 8)) : v * z ^ 2 = u ∨ v * z ^ 2 = -u := by
  have hexponent : (prime - 5) / 8 * 2 + 1 = (prime - 1) / 4 := by decide
  have hsquare : (u * v ^ 7 : ZMod prime) = (x * v ^ 4) ^ 2 := by
    linear_combination -(v : ZMod prime) ^ 7 * hu
  have hvalue : v * z ^ 2 = u * ((x * v ^ 4) ^ 2) ^ ((prime - 1) / 4) := by
    rw [hz, ← hsquare, ← hexponent, pow_succ _ ((prime - 5) / 8 * 2), pow_mul]
    ring
  by_cases hroot : x * (v : ZMod prime) ^ 4 = 0
  · have hzero : (u : ZMod prime) = 0 := by
      rcases mul_eq_zero.mp hroot with hx | hv
      · rw [← hu, hx]
        ring
      · rw [← hu, eq_zero_of_pow_eq_zero hv, zero_mul]
    left
    rw [hvalue, hzero, zero_mul]
  · rw [hvalue]
    rcases square_pow_quarter hroot with hone | hneg
    · left
      rw [hone, mul_one]
    · right
      rw [hneg, mul_neg_one]

theorem sqrtRatio_eq_some (hu : v * x ^ 2 = u) (hlt : u < prime) :
    ∃ r, sqrtRatio u v = some r ∧ r < prime ∧ (v * r ^ 2 : ZMod prime) = u := by
  have hle : u ≤ prime := hlt.le
  rw [sqrtRatio]
  generalize hr : mul (mul u (mul (mul v v) v)) (modPow _ _ _) = r
  have hcandidate : (r : ZMod prime) = u * v ^ 3 * (u * v ^ 7) ^ ((prime - 5) / 8) := by
    rw [← hr]
    simp only [cast_mul, cast_modPow]
    ring
  have hcheck : (mul v (mul r r) : ZMod prime) = v * r ^ 2 := by
    simp only [cast_mul]
    ring
  by_cases hroot : mul v (mul r r) = u
  · refine ⟨r, ?_, ?_, ?_⟩
    · simp only [if_pos hroot]
    · rw [← hr]
      exact mul_lt _ _
    · rw [← hcheck, hroot]
  · have hneg : (v * r ^ 2 : ZMod prime) = -u := by
      apply (sq_candidate hu hcandidate).resolve_left
      intro heq
      apply hroot
      exact cast_inj_of_lt (mul_lt _ _) hlt (hcheck.trans heq)
    have hnegated : mul v (mul r r) = sub 0 u := by
      apply cast_inj_of_lt (mul_lt _ _) (sub_lt _ _)
      rw [hcheck, hneg, cast_sub 0 hle, Nat.cast_zero, zero_sub]
    refine ⟨mul r sqrtMinusOne, ?_, mul_lt _ _, ?_⟩
    · simp only [if_neg hroot, if_pos hnegated]
    · rw [cast_mul]
      linear_combination (v * r ^ 2 : ZMod prime) * sqrtMinusOne_sq - hneg

end SquareRoot

/-! ## Decoding an encoding -/

/-- The second coordinate with the parity of the first in the top bit. -/
def encoding (p : Curve) : Block 32 := .littleEndian 32 (p.y.val + (p.x.val % 2) <<< 255)

theorem mul_inv_eq_val {a z : Nat} {x : ZMod prime} (hz : (z : ZMod prime) ≠ 0)
    (ha : (a : ZMod prime) = x * z) : mul a (inv z) = x.val := by
  apply eq_val_of_cast (mul_lt _ _)
  rw [cast_mul, cast_inv, ha, mul_inv_cancel_right₀ hz]

theorem IsAt.compress {P : Point} {p : Curve} (h : P.IsAt p) : P.compress = encoding p := by
  rw [Point.compress, mul_inv_eq_val h.Z_ne_zero h.X_eq, mul_inv_eq_val h.Z_ne_zero h.Y_eq, encoding]

/-- Two square roots differ in parity, because the modulus is odd. -/
theorem cast_choose_parity {r : Nat} {x : ZMod prime} (hr : r < prime)
    (hsq : (r : ZMod prime) ^ 2 = x ^ 2) :
    let chosen := if r % 2 = x.val % 2 then r else sub 0 r
    chosen < prime ∧ (chosen : ZMod prime) = x := by
  intro chosen
  have hodd : prime % 2 = 1 := by decide
  have hvalue := x.val_lt
  by_cases hparity : r % 2 = x.val % 2
  · have hchosen : chosen = r := if_pos hparity
    rw [hchosen]
    refine ⟨hr, ?_⟩
    rcases sq_eq_sq_iff_eq_or_eq_neg.mp hsq with heq | hneg
    · exact heq
    · have hval := eq_val_of_cast hr hneg
      rw [ZMod.neg_val] at hval
      split_ifs at hval with hzero
      · rw [hneg, hzero, neg_zero]
      · omega
  · have hchosen : chosen = sub 0 r := if_neg hparity
    rw [hchosen]
    refine ⟨sub_lt _ _, ?_⟩
    rw [cast_sub 0 hr.le, Nat.cast_zero, zero_sub]
    rcases sq_eq_sq_iff_eq_or_eq_neg.mp hsq with heq | hneg
    · rw [eq_val_of_cast hr heq] at hparity
      exact absurd rfl hparity
    · rw [hneg, neg_neg]

theorem denominator_ne_zero (y : ZMod prime) : d * y ^ 2 + 1 ≠ (0 : ZMod prime) := by
  intro hzero
  by_cases hy : y = 0
  · rw [hy] at hzero
    simp at hzero
  · have hne : (sqrtMinusOne : ZMod prime) ^ 2 ≠ d * y ^ 2 := EdwardsPoint.sq_ne_mul_sq hy
    apply hne
    linear_combination sqrtMinusOne_sq - hzero

/-- The number that is encoded fits into the bytes. -/
theorem ofLittleEndian_encoding (p : Curve) :
    ofLittleEndian (encoding p).toList = p.y.val + (p.x.val % 2) <<< 255 := by
  have hbound : prime + 1 <<< 255 < 256 ^ 32 := by decide
  have hy := p.y.val_lt
  have hx : (p.x.val % 2) <<< 255 ≤ 1 <<< 255 := by
    rw [Nat.shiftLeft_eq, Nat.shiftLeft_eq]
    exact Nat.mul_le_mul_right _ (by omega)
  rw [encoding, Block.littleEndian, ofLittleEndian_toLittleEndian, Nat.mod_eq_of_lt]
  omega

theorem decompress_encoding (p : Curve) : ∃ P, decompress (encoding p) = some P ∧ P.IsAt p := by
  have hfits : p.y.val < 1 <<< 255 := p.y.val_lt.trans (by decide)
  have hy : (p.y.val : ZMod prime) = p.y := ZMod.natCast_zmod_val p.y
  have hnumerator : (sub (mul p.y.val p.y.val) 1 : ZMod prime) = p.y ^ 2 - 1 := by
    rw [cast_sub _ prime_prime.one_le, cast_mul, hy, Nat.cast_one, pow_two]
  have hdenominator : (add (mul d (mul p.y.val p.y.val)) 1 : ZMod prime) = d * p.y ^ 2 + 1 := by
    rw [cast_add, cast_mul, cast_mul, hy, Nat.cast_one, pow_two]
  have hquotient : (add (mul d (mul p.y.val p.y.val)) 1 : ZMod prime) * p.x ^ 2 =
      sub (mul p.y.val p.y.val) 1 := by
    rw [hnumerator, hdenominator]
    linear_combination -p.equation
  obtain ⟨r, hroot, hr, hvalue⟩ := sqrtRatio_eq_some hquotient (sub_lt _ _)
  have hsq : (r : ZMod prime) ^ 2 = p.x ^ 2 := by
    rw [hnumerator, hdenominator] at hvalue
    apply mul_left_cancel₀ (denominator_ne_zero p.y)
    linear_combination hvalue + p.equation
  obtain ⟨hlt, hx⟩ := cast_choose_parity hr hsq
  refine ⟨_, ?_, isAt_ofAffine hlt hx hy⟩
  rw [decompress, ofLittleEndian_encoding, add_shiftLeft_mod hfits, add_shiftLeft_shiftRight hfits,
    Nat.mod_eq_of_lt p.y.val_lt]
  simp only [hroot, Option.map_some]

end Point

end DeniableHandshake.Edwards25519
