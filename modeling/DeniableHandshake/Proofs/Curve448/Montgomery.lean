import Mathlib.AlgebraicGeometry.EllipticCurve.Affine.Point
import Mathlib.Tactic.FieldSimp
import Mathlib.Tactic.LinearCombination

/-!
# Coordinates on a Montgomery curve

The points of `y² = x³ + A x² + x` form a group. Its law on the `x`-coordinates alone, with the
coordinate of a difference known, is what a Montgomery ladder computes; the coordinates are
projective, and the point at infinity is `X : 0`.
-/
namespace DeniableHandshake

variable {K : Type*} [Field K] {A : K}

def montgomery (A : K) : WeierstrassCurve.Affine K := ⟨0, A, 0, 1, 0⟩

namespace Montgomery

open WeierstrassCurve.Affine

theorem equation_iff {x y : K} : (montgomery A).Equation x y ↔ y ^ 2 = x ^ 3 + A * x ^ 2 + x := by
  rw [WeierstrassCurve.Affine.equation_iff]
  simp [montgomery]

theorem negY_eq (x y : K) : (montgomery A).negY x y = -y := by
  simp [montgomery, negY]

theorem addX_eq (x x' l : K) : (montgomery A).addX x x' l = l ^ 2 - A - x - x' := by
  simp [montgomery, addX]

/-- The point at infinity counts as zero. -/
def coordinate : (montgomery A).Point → K
  | .zero => 0
  | .some x _ _ => x

/-- Projective `x`-coordinates of a point. -/
def IsAt (X Z : K) : (montgomery A).Point → Prop
  | .zero => X ≠ 0 ∧ Z = 0
  | .some x _ _ => Z ≠ 0 ∧ X = x * Z

variable {X Z X' Z' : K}

theorem isAt_zero : IsAt X Z (0 : (montgomery A).Point) ↔ X ≠ 0 ∧ Z = 0 := Iff.rfl

theorem isAt_some {x y : K} {h : (montgomery A).Nonsingular x y} :
    IsAt X Z (.some x y h) ↔ Z ≠ 0 ∧ X = x * Z := Iff.rfl

theorem IsAt.coordinate_eq {P : (montgomery A).Point} (h : IsAt X Z P) :
    coordinate P = X * Z⁻¹ := by
  cases P with
  | zero =>
    obtain ⟨-, rfl⟩ := h
    rw [inv_zero, mul_zero]
    rfl
  | some x y hxy =>
    obtain ⟨hZ, rfl⟩ := h
    rw [mul_assoc, mul_inv_cancel₀ hZ, mul_one]
    rfl

variable {x y x' y' : K}

theorem ne_negY (h2 : (2 : K) ≠ 0) (hy : y ≠ 0) : y ≠ (montgomery A).negY x y := by
  rw [negY_eq]
  intro he
  have hdouble : 2 * y = 0 := by linear_combination he
  exact hy ((mul_eq_zero.mp hdouble).resolve_left h2)

theorem nonsingular_of_ne_zero (h2 : (2 : K) ≠ 0) (hy : y ≠ 0) (h : (montgomery A).Equation x y) :
    (montgomery A).Nonsingular x y := by
  rw [nonsingular_iff]
  refine ⟨h, .inr ?_⟩
  have hne := ne_negY (A := A) (x := x) h2 hy
  simpa only [negY] using hne

/-- No point of order two has the coordinate one or minus one. -/
theorem sq_ne_one_of_root (hA : A ^ 2 ≠ 4) (h : (montgomery A).Equation x 0) : x ^ 2 ≠ 1 := by
  intro hx
  have hcurve := equation_iff.mp h
  apply hA
  have hAx : A = -2 * x := by linear_combination (-x - A) * hx - hcurve
  rw [hAx]
  linear_combination 4 * hx

theorem sq_ne_four_of_not_isSquare (hA : ¬ IsSquare (A ^ 2 - 4)) : A ^ 2 ≠ 4 := by
  intro h
  rw [h, sub_self] at hA
  exact hA IsSquare.zero

/-- If `A² - 4` is not a square, then the right-hand side has no root but zero. -/
theorem eq_zero_of_root (hA : ¬ IsSquare (A ^ 2 - 4)) (h : x ^ 3 + A * x ^ 2 + x = 0) : x = 0 := by
  by_contra hx
  have hfactor : x * (x ^ 2 + A * x + 1) = 0 := by linear_combination h
  have hquadratic := (mul_eq_zero.mp hfactor).resolve_left hx
  exact hA ⟨2 * x + A, by linear_combination -4 * hquadratic⟩

theorem four_ne_zero (h2 : (2 : K) ≠ 0) : (4 : K) ≠ 0 := by
  have h4 : (4 : K) = 2 * 2 := by norm_num
  rw [h4]
  exact mul_ne_zero h2 h2

variable [DecidableEq K]

/-- The coordinate of a double, by the tangent. -/
theorem addX_slope_self (h2 : (2 : K) ≠ 0) (hy : y ≠ 0) (h : (montgomery A).Equation x y) :
    (montgomery A).addX x x ((montgomery A).slope x x y y) * (4 * y ^ 2) = (x ^ 2 - 1) ^ 2 := by
  have hcurve := equation_iff.mp h
  have hslope : (montgomery A).slope x x y y * (2 * y) = 3 * x ^ 2 + 2 * A * x + 1 := by
    rw [slope_of_Y_ne rfl (ne_negY h2 hy), negY_eq, sub_neg_eq_add, ← two_mul,
      div_mul_cancel₀ _ (mul_ne_zero h2 hy)]
    simp [montgomery]
  rw [addX_eq]
  generalize (montgomery A).slope x x y y = l at hslope
  linear_combination (l * (2 * y) + (3 * x ^ 2 + 2 * A * x + 1)) * hslope -
    4 * (A + 2 * x) * hcurve

/-- The coordinates of a sum and a difference, by their chords. -/
theorem addX_slope_mul (h : (montgomery A).Equation x y) (h' : (montgomery A).Equation x' y')
    (hx : x ≠ x') :
    (montgomery A).addX x x' ((montgomery A).slope x x' y y') *
      ((montgomery A).addX x x' ((montgomery A).slope x x' y (-y')) * (x - x') ^ 2) =
      (x * x' - 1) ^ 2 := by
  have hd : x - x' ≠ 0 := sub_ne_zero.mpr hx
  have hsum : (montgomery A).slope x x' y y' * (x - x') = y - y' := by
    rw [slope_of_X_ne hx, div_mul_cancel₀ _ hd]
  have hdifference : (montgomery A).slope x x' y (-y') * (x - x') = y + y' := by
    rw [slope_of_X_ne hx, div_mul_cancel₀ _ hd, sub_neg_eq_add]
  have hcurve := equation_iff.mp h
  have hcurve' := equation_iff.mp h'
  rw [addX_eq, addX_eq]
  generalize (montgomery A).slope x x' y y' = l at hsum
  generalize (montgomery A).slope x x' y (-y') = l' at hdifference
  have hp : (l ^ 2 - A - x - x') * (x - x') ^ 2 = (y - y') ^ 2 - (A + x + x') * (x - x') ^ 2 := by
    linear_combination (l * (x - x') + (y - y')) * hsum
  have hm : (l' ^ 2 - A - x - x') * (x - x') ^ 2 = (y + y') ^ 2 - (A + x + x') * (x - x') ^ 2 := by
    linear_combination (l' * (x - x') + (y + y')) * hdifference
  apply mul_right_cancel₀ (pow_ne_zero 2 hd)
  calc (l ^ 2 - A - x - x') * ((l' ^ 2 - A - x - x') * (x - x') ^ 2) * (x - x') ^ 2
      = (l ^ 2 - A - x - x') * (x - x') ^ 2 * ((l' ^ 2 - A - x - x') * (x - x') ^ 2) := by ring
    _ = ((y - y') ^ 2 - (A + x + x') * (x - x') ^ 2) *
        ((y + y') ^ 2 - (A + x + x') * (x - x') ^ 2) := by rw [hp, hm]
    _ = (x * x' - 1) ^ 2 * (x - x') ^ 2 := by
      linear_combination
        (y ^ 2 - y' ^ 2 + (x ^ 3 + A * x ^ 2 + x - (x' ^ 3 + A * x' ^ 2 + x')) -
          2 * (A + x + x') * (x - x') ^ 2) * hcurve -
        (y ^ 2 - y' ^ 2 + (x ^ 3 + A * x ^ 2 + x - (x' ^ 3 + A * x' ^ 2 + x')) +
          2 * (A + x + x') * (x - x') ^ 2) * hcurve'

variable {P Q : (montgomery A).Point}

theorem IsAt.double (h2 : (2 : K) ≠ 0) (hA : A ^ 2 ≠ 4) (h : IsAt X Z P) :
    IsAt ((X ^ 2 - Z ^ 2) ^ 2) (4 * X * Z * (X ^ 2 + A * X * Z + Z ^ 2)) (P + P) := by
  cases P with
  | zero =>
    obtain ⟨hX, rfl⟩ := h
    rw [← Point.zero_def, add_zero, isAt_zero]
    refine ⟨?_, by ring⟩
    simpa using hX
  | some x y hxy =>
    obtain ⟨hZ, rfl⟩ := h
    have hcurve := equation_iff.mp hxy.1
    have hdenominator : 4 * (x * Z) * Z * ((x * Z) ^ 2 + A * (x * Z) * Z + Z ^ 2) =
        4 * y ^ 2 * Z ^ 4 := by linear_combination -4 * Z ^ 4 * hcurve
    rw [hdenominator]
    by_cases hy : y = 0
    · subst hy
      have hx := sub_ne_zero.mpr (sq_ne_one_of_root hA hxy.1)
      have hnumerator : ((x * Z) ^ 2 - Z ^ 2) ^ 2 = (x ^ 2 - 1) ^ 2 * Z ^ 4 := by ring
      rw [Point.add_self_of_Y_eq (by rw [negY_eq, neg_zero]), isAt_zero, hnumerator]
      exact ⟨mul_ne_zero (pow_ne_zero 2 hx) (pow_ne_zero 4 hZ), by ring⟩
    · rw [Point.add_self_of_Y_ne (ne_negY h2 hy), isAt_some]
      refine ⟨mul_ne_zero (mul_ne_zero (four_ne_zero h2) (pow_ne_zero 2 hy)) (pow_ne_zero 4 hZ), ?_⟩
      linear_combination -Z ^ 4 * addX_slope_self h2 hy hxy.1

/-- The only points whose coordinate counts as zero are those of order at most two. -/
theorem add_self_of_coordinate_eq_zero (h : coordinate P = 0) : P + P = 0 := by
  cases P with
  | zero => exact zero_add 0
  | some x y hxy =>
    obtain rfl : x = 0 := h
    have hcurve := equation_iff.mp hxy.1
    obtain rfl : y = 0 := by simpa using hcurve
    exact Point.add_self_of_Y_eq (by rw [negY_eq, neg_zero])

theorem coordinate_eq_zero_of_add_self (h2 : (2 : K) ≠ 0) (hA : ¬ IsSquare (A ^ 2 - 4))
    (h : P + P = 0) : coordinate P = 0 := by
  cases P with
  | zero => rfl
  | some x y hxy =>
    have hy : y = 0 := by
      by_contra hne
      rw [Point.add_self_of_Y_ne (ne_negY h2 hne)] at h
      exact Point.some_ne_zero _ h
    have hcurve := equation_iff.mp hxy.1
    rw [hy, zero_pow two_ne_zero] at hcurve
    exact eq_zero_of_root hA hcurve.symm

/-- The points whose order divides four are told by their coordinates. -/
theorem four_nsmul_eq_zero_iff (h2 : (2 : K) ≠ 0) (hA : ¬ IsSquare (A ^ 2 - 4)) :
    4 • P = 0 ↔ coordinate P = 0 ∨ coordinate P ^ 2 = 1 := by
  have hfour : 4 • P = P + P + (P + P) := by abel
  rw [hfour]
  cases P with
  | zero =>
    rw [← Point.zero_def, add_zero, add_zero]
    exact ⟨fun _ => .inl rfl, fun _ => rfl⟩
  | some x y hxy =>
    have hat : IsAt x 1 (.some x y hxy) := ⟨one_ne_zero, (mul_one x).symm⟩
    have hdouble := (hat.double h2 (sq_ne_four_of_not_isSquare hA)).coordinate_eq
    change _ ↔ x = 0 ∨ x ^ 2 = 1
    constructor
    · intro h
      rw [coordinate_eq_zero_of_add_self h2 hA h, eq_comm, mul_eq_zero, inv_eq_zero] at hdouble
      cases hdouble with
      | inl hnumerator =>
        have hx := (pow_eq_zero_iff two_ne_zero).mp hnumerator
        rw [one_pow] at hx
        exact .inr (sub_eq_zero.mp hx)
      | inr hdenominator =>
        have hroot : 4 * (x ^ 3 + A * x ^ 2 + x) = 0 := by linear_combination hdenominator
        exact .inl (eq_zero_of_root hA ((mul_eq_zero.mp hroot).resolve_left (four_ne_zero h2)))
    · intro h
      apply add_self_of_coordinate_eq_zero
      rw [hdouble]
      cases h with
      | inl hzero =>
        rw [hzero]
        ring
      | inr hone =>
        rw [hone]
        ring

/-- A point of odd order, other than infinity, is not of order four. -/
theorem four_nsmul_ne_zero_of_odd_order {n : ℕ} (hn : Odd n) (hP : n • P = 0) (hne : P ≠ 0) :
    4 • P ≠ 0 := by
  intro hP4
  have hcoprime : Nat.Coprime n 4 := (Nat.coprime_two_right.mpr hn).pow_right 2
  have horder := Nat.eq_one_of_dvd_coprimes hcoprime (addOrderOf_dvd_of_nsmul_eq_zero hP)
    (addOrderOf_dvd_of_nsmul_eq_zero hP4)
  exact hne (AddMonoid.addOrderOf_eq_one_iff.mp horder)

variable {u v : K} {hD : (montgomery A).Nonsingular u v}

/-- A point with the coordinate one or minus one doubles to the point of order two at zero. -/
theorem sq_ne_one_of_double (h2 : (2 : K) ≠ 0) (hA : A ^ 2 ≠ 4) (hu : u ≠ 0)
    {hxy : (montgomery A).Nonsingular x y}
    (h : Point.some x y hxy + .some x y hxy = .some u v hD) : x ^ 2 - 1 ≠ 0 := by
  have hat : IsAt x 1 (.some x y hxy) := ⟨one_ne_zero, (mul_one x).symm⟩
  have hdouble := hat.double h2 hA
  rw [h, isAt_some] at hdouble
  obtain ⟨hZ, hX⟩ := hdouble
  intro hx
  have hne := mul_ne_zero hu hZ
  rw [← hX, one_pow, hx] at hne
  simp at hne

/-- The sum of two points, of which the second is ahead of the first by a point with a known
coordinate. -/
theorem IsAt.add (h2 : (2 : K) ≠ 0) (hA : A ^ 2 ≠ 4) (hu : u ≠ 0) (h : IsAt X Z P)
    (h' : IsAt X' Z' Q) (hQ : Q = P + .some u v hD) :
    IsAt (4 * (X' * X - Z' * Z) ^ 2) (4 * u * (X' * Z - X * Z') ^ 2) (P + Q) := by
  have h4 := four_ne_zero h2
  cases P with
  | zero =>
    rw [← Point.zero_def, zero_add] at hQ
    subst hQ
    obtain ⟨hX, rfl⟩ := h
    obtain ⟨hZ', rfl⟩ := h'
    rw [← Point.zero_def, zero_add, isAt_some]
    refine ⟨?_, by ring⟩
    have hne := mul_ne_zero (mul_ne_zero h4 hu) (pow_ne_zero 2 (mul_ne_zero hX hZ'))
    simpa using hne
  | some x y hxy =>
    obtain ⟨hZ, rfl⟩ := h
    cases Q with
    | zero =>
      obtain ⟨hX', rfl⟩ := h'
      have hneg : Point.some x y hxy = -.some u v hD := eq_neg_of_add_eq_zero_left hQ.symm
      rw [Point.neg_some] at hneg
      obtain ⟨rfl, rfl⟩ := Point.some.inj hneg
      rw [← Point.zero_def, add_zero, isAt_some]
      refine ⟨?_, by ring⟩
      have hne := mul_ne_zero (mul_ne_zero h4 hu) (pow_ne_zero 2 (mul_ne_zero hX' hZ))
      simpa using hne
    | some x' y' hxy' =>
      obtain ⟨hZ', rfl⟩ := h'
      have hZZ' := mul_ne_zero hZ hZ'
      have hD' : Point.some u v hD = .some x' y' hxy' + -.some x y hxy := by
        rw [hQ, add_comm, neg_add_cancel_left]
      by_cases hx : x' = x
      · -- the second point is the opposite of the first, since the difference is not zero
        have hsign : Point.some x' y' hxy' = Point.some x y hxy ∨
            Point.some x' y' hxy' = -Point.some x y hxy := Point.X_eq_iff.mp hx
        cases hsign with
        | inl hsame =>
          rw [hsame, add_neg_cancel] at hD'
          exact absurd hD' (Point.some_ne_zero hD)
        | inr hopposite =>
          rw [← hopposite] at hD'
          have hne := mul_ne_zero (sq_ne_one_of_double h2 hA hu hD'.symm) hZZ'
          rw [hopposite, add_neg_cancel, isAt_zero, hx]
          have hnumerator : x * Z' * (x * Z) - Z' * Z = (x ^ 2 - 1) * (Z * Z') := by ring
          rw [hnumerator, ← hx]
          exact ⟨mul_ne_zero h4 (pow_ne_zero 2 hne), by ring⟩
      · rw [Point.neg_some, Point.add_of_X_ne hx] at hD'
        obtain ⟨hu', -⟩ := Point.some.inj hD'
        rw [negY_eq] at hu'
        rw [add_comm, Point.add_of_X_ne hx, isAt_some]
        have hdenominator : x' * Z' * Z - x * Z * Z' = (x' - x) * (Z * Z') := by ring
        have hne := mul_ne_zero (sub_ne_zero.mpr hx) hZZ'
        rw [hdenominator]
        constructor
        · exact mul_ne_zero (mul_ne_zero h4 hu) (pow_ne_zero 2 hne)
        · have hproduct := addX_slope_mul hxy'.1 hxy.1 hx
          rw [← hu'] at hproduct
          linear_combination -4 * Z ^ 2 * Z' ^ 2 * hproduct

end Montgomery

end DeniableHandshake
