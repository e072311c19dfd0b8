import DeniableHandshake.Proofs.Curve448.Keypair
import Mathlib.NumberTheory.LegendreSymbol.Basic

/-!
# Membership on the curve

A point is valid exactly if its coordinate is reduced, is none of zero, one and minus one, and belongs to
a point of the curve. Since `A² - 4` is not a square, zero is the only coordinate at which the right-hand
side of the curve equation vanishes, so Euler's criterion loses no point of the curve. Among the points of
the curve those that are not valid are the ones whose order divides four.
-/
namespace DeniableHandshake.Curve448
open Residue Montgomery

theorem not_isSquare_discriminant : ¬ IsSquare ((coefficient : ZMod prime) ^ 2 - 4) := by
  have hcast : (coefficient : ZMod prime) ^ 2 - 4 = (coefficient ^ 2 - 4 : ℕ) := by
    norm_num [coefficient]
  have hne : ((coefficient ^ 2 - 4 : ℕ) : ZMod prime) ≠ 0 := cast_ne_zero_of_lt (by decide) (by decide)
  have heuler : modPow (coefficient ^ 2 - 4) (prime / 2) prime ≠ 1 := by decide +kernel
  rw [hcast, ZMod.euler_criterion prime hne, Certificate.cast_pow_eq_one_iff prime_prime.one_lt]
  exact heuler

/-- The reduced coordinates of the points whose order divides four. -/
theorem small_iff_cast {u : Nat} (hu : u < prime) :
    u = 0 ∨ u = 1 ∨ u = prime - 1 ↔ (u : ZMod prime) = 0 ∨ (u : ZMod prime) ^ 2 = 1 := by
  have hcast {w : Nat} (hw : w < prime) : u = w ↔ (u : ZMod prime) = w :=
    ⟨fun h => congrArg _ h, cast_inj_of_lt hu hw⟩
  have hminus : ((prime - 1 : ℕ) : ZMod prime) = -1 := by
    rw [Nat.cast_sub prime_prime.one_le, Nat.cast_one, ZMod.natCast_self, zero_sub]
  rw [hcast (by decide), hcast (by decide), hcast (by decide), Nat.cast_zero, Nat.cast_one, hminus,
    pow_two, mul_self_eq_one_iff]

namespace Point

variable {p : Point} {u : Nat}

/-! ### The right-hand side of the curve equation -/

theorem cast_curveValue (u : Nat) :
    (curveValue u : ZMod prime) = u ^ 3 + coefficient * u ^ 2 + u := by
  simp only [curveValue, ZMod.natCast_mod, Nat.cast_add, Nat.cast_mul]
  ring

theorem cast_curveValue_ne_zero (hu : u < prime) (hne : u ≠ 0) : (curveValue u : ZMod prime) ≠ 0 := by
  intro hzero
  rw [cast_curveValue] at hzero
  exact cast_ne_zero_of_lt hu hne (eq_zero_of_root not_isSquare_discriminant hzero)

theorem cast_curveValue_eq_iff {n : Nat} : (curveValue u : ZMod prime) = n ↔
    n % prime = (u ^ 3 + 156326 * u ^ 2 + u) % prime := by
  rw [← ZMod.natCast_eq_natCast_iff', cast_curveValue, eq_comm]
  push_cast [coefficient]
  rfl

theorem isSquare_curveValue_iff : IsSquare (curveValue u : ZMod prime) ↔
    ∃ v : Nat, v ^ 2 % prime = (u ^ 3 + 156326 * u ^ 2 + u) % prime := by
  constructor
  · rintro ⟨w, hw⟩
    refine ⟨w.val, cast_curveValue_eq_iff.mp ?_⟩
    rw [Nat.cast_pow, ZMod.natCast_zmod_val, hw, pow_two]
  · rintro ⟨v, hv⟩
    refine ⟨v, ?_⟩
    rw [cast_curveValue_eq_iff.mpr hv, Nat.cast_pow, pow_two]

/-! ### The tests -/

/-- The tests of `isValid` that come before the one of the exchange. -/
def liesOnCurve (p : Point) : Bool :=
  let u := p.coordinate
  decide (u < prime) && u != 0 && u != 1 && u != prime - 1 &&
    modPow (curveValue u) ((prime - 1) / 2) prime == 1

theorem isValid_eq (p : Point) : p.isValid = (p.liesOnCurve && !p.isRefused) := rfl

theorem liesOnCurve_iff : p.liesOnCurve = true ↔ p.coordinate < prime ∧ p.isRefused = false ∧
    modPow (curveValue p.coordinate) ((prime - 1) / 2) prime = 1 := by
  rw [← Bool.not_eq_true, isRefused_iff]
  simp only [liesOnCurve, Bool.and_eq_true, decide_eq_true_eq, bne_iff_ne, beq_iff_eq, not_or,
    and_assoc, ne_eq]

/-- The exchange refuses no point that passed the tests before. -/
theorem isValid_eq_liesOnCurve (p : Point) : p.isValid = p.liesOnCurve := by
  rw [isValid_eq]
  cases h : p.liesOnCurve with
  | false => rfl
  | true =>
    rw [(liesOnCurve_iff.mp h).2.1]
    rfl

theorem isValid_iff_isSquare : p.isValid = true ↔ p.coordinate < prime ∧ p.isRefused = false ∧
    IsSquare (curveValue p.coordinate : ZMod prime) := by
  rw [isValid_eq_liesOnCurve, liesOnCurve_iff]
  refine and_congr_right fun hlt => and_congr_right fun hrefused => ?_
  have hhalf : prime / 2 = (prime - 1) / 2 := by decide
  rw [ZMod.euler_criterion prime (cast_curveValue_ne_zero hlt (coordinate_ne_zero hrefused)), hhalf,
    Certificate.cast_pow_eq_one_iff prime_prime.one_lt]

/-! ### Points of the curve and of its twists -/

/-- The coordinate of a point of a quadratic twist, reduced or not. -/
theorem isValid_of_twist {d v : ZMod prime} (hd : ¬ IsSquare d)
    (hv : d * v ^ 2 = curveValue p.coordinate) : p.isValid = false := by
  rw [← Bool.not_eq_true, isValid_iff_isSquare]
  rintro ⟨hlt, hrefused, w, hw⟩
  have hne := cast_curveValue_ne_zero hlt (coordinate_ne_zero hrefused)
  have hv0 : v ≠ 0 := by
    rintro rfl
    rw [← hv, zero_pow two_ne_zero, mul_zero] at hne
    exact hne rfl
  apply hd
  refine ⟨w / v, ?_⟩
  rw [← hv] at hw
  field_simp
  rw [hw, pow_two]

/-- A reduced coordinate of a point of the curve is valid unless the order of the point divides four. -/
theorem isValid_iff_four_nsmul_ne_zero {P : curve.Point} (hlt : p.coordinate < prime) (hP : P ≠ 0)
    (hcoordinate : Montgomery.coordinate P = p.coordinate) : p.isValid = true ↔ 4 • P ≠ 0 := by
  have hsquare : IsSquare (curveValue p.coordinate : ZMod prime) := by
    cases P with
    | zero => exact absurd rfl hP
    | some x y hxy =>
      obtain rfl : x = p.coordinate := hcoordinate
      rw [cast_curveValue, ← equation_iff.mp hxy.1]
      exact IsSquare.sq y
  rw [isValid_iff_isSquare, ne_eq, four_nsmul_eq_zero_iff cast_two_ne_zero not_isSquare_discriminant,
    hcoordinate, ← small_iff_cast hlt, ← isRefused_iff, Bool.not_eq_true]
  simp only [hlt, hsquare, true_and, and_true]

/-- Membership is exact: the modulus is prime (`prime_prime`), and the exchange refuses the encodings of
zero, one and minus one (`isRefused_iff`). -/
theorem isValid_iff_exists_ordinate (p : Point) :
    (p.isValid = true ↔ p.coordinate < prime ∧ p.coordinate ≠ 0 ∧ p.coordinate ≠ 1 ∧
      p.coordinate ≠ prime - 1 ∧ ∃ v : Nat, v ^ 2 % prime =
        (p.coordinate ^ 3 + 156326 * p.coordinate ^ 2 + p.coordinate) % prime) ∧
    (prime ≤ p.coordinate → p.isValid = false) ∧
    (∀ d v : ZMod prime, ¬ IsSquare d → d * v ^ 2 =
      (p.coordinate : ZMod prime) ^ 3 + 156326 * (p.coordinate : ZMod prime) ^ 2 + p.coordinate →
        p.isValid = false) ∧
    (∀ P : curve.Point, P ≠ 0 → p.coordinate < prime → Montgomery.coordinate P = p.coordinate →
      (p.isValid = true ↔ 4 • P ≠ 0)) ∧
    (p.coordinate < prime → p.coordinate ≠ 0 →
      (p.coordinate ^ 3 + 156326 * p.coordinate ^ 2 + p.coordinate) % prime ≠ 0) ∧
    (p.isRefused = true ↔ p.coordinate = 0 ∨ p.coordinate = 1 ∨ p.coordinate = prime - 1) ∧
    p.isValid = (p.liesOnCurve && !p.isRefused) ∧ p.isValid = p.liesOnCurve := by
  have hexact := isValid_iff_isSquare (p := p)
  rw [isSquare_curveValue_iff, ← Bool.not_eq_true, isRefused_iff] at hexact
  simp only [not_or, and_assoc] at hexact
  refine ⟨hexact, ?_, ?_, ?_, ?_, isRefused_iff, isValid_eq p, isValid_eq_liesOnCurve p⟩
  · intro hlarge
    rw [← Bool.not_eq_true, hexact]
    intro h
    exact absurd h.1 (Nat.not_lt.mpr hlarge)
  · intro d v hd hv
    apply isValid_of_twist hd
    rw [hv, cast_curveValue]
    rfl
  · intro P hP hlt hcoordinate
    exact isValid_iff_four_nsmul_ne_zero hlt hP hcoordinate
  · intro hlt hne hzero
    apply cast_curveValue_ne_zero hlt hne
    have hmod : 0 % prime = (p.coordinate ^ 3 + 156326 * p.coordinate ^ 2 + p.coordinate) % prime := by
      rw [hzero, Nat.zero_mod]
    rw [cast_curveValue_eq_iff.mpr hmod, Nat.cast_zero]

end Point

end DeniableHandshake.Curve448
