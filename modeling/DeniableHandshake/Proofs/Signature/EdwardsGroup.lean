import Mathlib.Algebra.Field.Basic
import Mathlib.Algebra.Group.MinimalAxioms
import Mathlib.Tactic.FieldSimp
import Mathlib.Tactic.LinearCombination
import Mathlib.Tactic.Ring

/-!
# The group of a twisted Edwards curve

The points of `-x² + y² = 1 + d x² y²` over a field in which `-1` is a square and `d` is not. One pair of
fractions adds any two of them: the denominators are never zero, and the sum is associative.
-/
namespace DeniableHandshake

variable {K : Type*} [Field K]

/-- The conditions under which the addition law has no exceptional cases. -/
class CompleteEdwards (d : K) : Prop where
  two_ne_zero : (2 : K) ≠ 0
  exists_sq_eq_neg_one : ∃ i : K, i ^ 2 = -1
  sq_ne : ∀ z : K, z ^ 2 ≠ d

@[ext] structure EdwardsPoint (d : K) where
  x : K
  y : K
  equation : -x ^ 2 + y ^ 2 = 1 + d * x ^ 2 * y ^ 2

namespace EdwardsPoint

variable {d : K}

section Denominators

variable [CompleteEdwards d] {x₁ y₁ x₂ y₂ : K}

theorem sq_ne_mul_sq {z w : K} (hw : w ≠ 0) : z ^ 2 ≠ d * w ^ 2 := by
  intro h
  apply CompleteEdwards.sq_ne (d := d) (z / w)
  rw [div_pow, h, mul_div_cancel_right₀ _ (pow_ne_zero 2 hw)]

/-- Otherwise `d` would be the square of a quotient. -/
theorem sq_ne_one (h₁ : -x₁ ^ 2 + y₁ ^ 2 = 1 + d * x₁ ^ 2 * y₁ ^ 2)
    (h₂ : -x₂ ^ 2 + y₂ ^ 2 = 1 + d * x₂ ^ 2 * y₂ ^ 2) : (d * x₁ * x₂ * y₁ * y₂) ^ 2 ≠ 1 := by
  intro hone
  obtain ⟨i, hi⟩ := CompleteEdwards.exists_sq_eq_neg_one d
  have hne : d * x₁ * x₂ * y₁ * y₂ ≠ 0 := by
    intro hzero
    rw [hzero] at hone
    simp at hone
  have hxy : x₁ * y₁ ≠ 0 := by
    intro hzero
    apply hne
    linear_combination d * x₂ * y₂ * hzero
  have hplus : (i * x₁ + d * x₁ * x₂ * y₁ * y₂ * y₁) ^ 2 = d * (x₁ * y₁ * (i * x₂ + y₂)) ^ 2 := by
    linear_combination (x₁ ^ 2 - d * x₁ ^ 2 * y₁ ^ 2 * x₂ ^ 2) * hi + (y₁ ^ 2 - 1) * hone + h₁ -
      d * x₁ ^ 2 * y₁ ^ 2 * h₂
  have hminus : (i * x₁ - d * x₁ * x₂ * y₁ * y₂ * y₁) ^ 2 = d * (x₁ * y₁ * (i * x₂ - y₂)) ^ 2 := by
    linear_combination (x₁ ^ 2 - d * x₁ ^ 2 * y₁ ^ 2 * x₂ ^ 2) * hi + (y₁ ^ 2 - 1) * hone + h₁ -
      d * x₁ ^ 2 * y₁ ^ 2 * h₂
  by_cases hsum : i * x₂ + y₂ = 0
  · by_cases hdifference : i * x₂ - y₂ = 0
    · have hdouble : 2 * y₂ = 0 := by linear_combination hsum - hdifference
      have hy : y₂ = 0 := (mul_eq_zero.mp hdouble).resolve_left (CompleteEdwards.two_ne_zero d)
      apply hne
      rw [hy, mul_zero]
    · exact sq_ne_mul_sq (mul_ne_zero hxy hdifference) hminus
  · exact sq_ne_mul_sq (mul_ne_zero hxy hsum) hplus

theorem one_add_ne_zero (P Q : EdwardsPoint d) : 1 + d * P.x * Q.x * P.y * Q.y ≠ 0 := by
  intro hzero
  apply sq_ne_one P.equation Q.equation
  linear_combination (d * P.x * Q.x * P.y * Q.y - 1) * hzero

theorem one_sub_ne_zero (P Q : EdwardsPoint d) : 1 - d * P.x * Q.x * P.y * Q.y ≠ 0 := by
  intro hzero
  apply sq_ne_one P.equation Q.equation
  linear_combination -(d * P.x * Q.x * P.y * Q.y + 1) * hzero

end Denominators

/-! ### Identities modulo the curve equations

Both sides differ by a combination of the curve equations of the points. The coefficients are the
quotients of the difference on division by these equations. -/

section Identities

variable {x₁ y₁ x₂ y₂ x₃ y₃ : K}

/-- A point given by quotients, with the denominators cleared. -/
theorem quotient_equation {a b p m : K} (hp : p ≠ 0) (hm : m ≠ 0)
    (h : -(a * m) ^ 2 + (b * p) ^ 2 = (p * m) ^ 2 + d * (a * b) ^ 2) :
    -(a / p) ^ 2 + (b / m) ^ 2 = 1 + d * (a / p) ^ 2 * (b / m) ^ 2 := by
  field_simp
  linear_combination h

theorem closure_identity (h₁ : -x₁ ^ 2 + y₁ ^ 2 = 1 + d * x₁ ^ 2 * y₁ ^ 2)
    (h₂ : -x₂ ^ 2 + y₂ ^ 2 = 1 + d * x₂ ^ 2 * y₂ ^ 2) :
    -((x₁ * y₂ + x₂ * y₁) * (1 - d * x₁ * x₂ * y₁ * y₂)) ^ 2 +
        ((y₁ * y₂ + x₁ * x₂) * (1 + d * x₁ * x₂ * y₁ * y₂)) ^ 2 =
      ((1 + d * x₁ * x₂ * y₁ * y₂) * (1 - d * x₁ * x₂ * y₁ * y₂)) ^ 2 +
        d * ((x₁ * y₂ + x₂ * y₁) * (y₁ * y₂ + x₁ * x₂)) ^ 2 := by
  linear_combination
    (x₁ ^ 2 * y₁ ^ 2 * x₂ ^ 4 * y₂ ^ 4 * d ^ 3 - x₁ ^ 2 * x₂ ^ 4 * y₂ ^ 4 * d ^ 2 - x₁ ^ 2 *
      x₂ ^ 4 * y₂ ^ 2 * d + x₁ ^ 2 * x₂ ^ 2 * y₂ ^ 4 * d + y₁ ^ 2 * x₂ ^ 4 * y₂ ^ 4 * d ^ 2 +
      y₁ ^ 2 * x₂ ^ 4 * y₂ ^ 2 * d - y₁ ^ 2 * x₂ ^ 2 * y₂ ^ 4 * d - x₂ ^ 4 * y₂ ^ 4 * d ^ 2 -
      2 * x₂ ^ 4 * y₂ ^ 4 * d - 2 * x₂ ^ 4 * y₂ ^ 2 + x₂ ^ 4 + 2 * x₂ ^ 2 * y₂ ^ 4 - 2 * x₂ ^
      2 * y₂ ^ 2 * d - 4 * x₂ ^ 2 * y₂ ^ 2 + y₂ ^ 4) * h₁ +
    (x₁ ^ 4 * x₂ ^ 2 * y₂ ^ 2 * d + 2 * x₁ ^ 2 * x₂ ^ 2 * y₂ ^ 2 * d + 2 * x₁ ^ 2 * x₂ ^ 2 *
      y₂ ^ 2 - x₁ ^ 2 * x₂ ^ 2 + x₁ ^ 2 * y₂ ^ 2 + y₁ ^ 4 * x₂ ^ 2 * y₂ ^ 2 * d - 2 * y₁ ^ 2 *
      x₂ ^ 2 * y₂ ^ 2 * d - 2 * y₁ ^ 2 * x₂ ^ 2 * y₂ ^ 2 + y₁ ^ 2 * x₂ ^ 2 - y₁ ^ 2 * y₂ ^ 2 +
      x₂ ^ 2 * y₂ ^ 2 * d + 2 * x₂ ^ 2 * y₂ ^ 2 - x₂ ^ 2 + y₂ ^ 2 + 1) * h₂

theorem assoc_x (h₁ : -x₁ ^ 2 + y₁ ^ 2 = 1 + d * x₁ ^ 2 * y₁ ^ 2)
    (h₂ : -x₂ ^ 2 + y₂ ^ 2 = 1 + d * x₂ ^ 2 * y₂ ^ 2)
    (h₃ : -x₃ ^ 2 + y₃ ^ 2 = 1 + d * x₃ ^ 2 * y₃ ^ 2) :
    ((x₁ * y₂ + x₂ * y₁) * (1 - d * x₁ * x₂ * y₁ * y₂) * y₃ +
        (y₁ * y₂ + x₁ * x₂) * (1 + d * x₁ * x₂ * y₁ * y₂) * x₃) *
      ((1 + d * x₂ * x₃ * y₂ * y₃) * (1 - d * x₂ * x₃ * y₂ * y₃) +
        d * x₁ * y₁ * (x₂ * y₃ + x₃ * y₂) * (y₂ * y₃ + x₂ * x₃)) =
    (x₁ * (y₂ * y₃ + x₂ * x₃) * (1 + d * x₂ * x₃ * y₂ * y₃) +
        y₁ * (x₂ * y₃ + x₃ * y₂) * (1 - d * x₂ * x₃ * y₂ * y₃)) *
      ((1 + d * x₁ * x₂ * y₁ * y₂) * (1 - d * x₁ * x₂ * y₁ * y₂) +
        d * (x₁ * y₂ + x₂ * y₁) * (y₁ * y₂ + x₁ * x₂) * x₃ * y₃) := by
  linear_combination
    d * x₂ * y₂ * (-x₁ * x₂ ^ 3 * y₂ ^ 2 * x₃ ^ 2 * y₃ * d - x₁ * x₂ ^ 3 * x₃ ^ 2 * y₃ - x₁ * x₂ ^ 2 * y₂
        ^ 3 * x₃ * y₃ ^ 2 * d - x₁ * x₂ ^ 2 * y₂ * x₃ ^ 3 - x₁ * x₂ ^ 2 * y₂ * x₃ + x₁ * x₂ *
        y₂ ^ 2 * y₃ ^ 3 - x₁ * x₂ * y₂ ^ 2 * y₃ + x₁ * y₂ ^ 3 * x₃ * y₃ ^ 2 + y₁ * x₂ ^ 3 * y₂
        ^ 2 * x₃ * y₃ ^ 2 * d + y₁ * x₂ ^ 3 * x₃ * y₃ ^ 2 + y₁ * x₂ ^ 2 * y₂ ^ 3 * x₃ ^ 2 * y₃
        * d + y₁ * x₂ ^ 2 * y₂ * y₃ ^ 3 - y₁ * x₂ ^ 2 * y₂ * y₃ - y₁ * x₂ * y₂ ^ 2 * x₃ ^ 3 -
        y₁ * x₂ * y₂ ^ 2 * x₃ - y₁ * y₂ ^ 3 * x₃ ^ 2 * y₃) * h₁ +
    d * x₂ * y₂ * (x₁ ^ 3 * x₂ * x₃ ^ 2 * y₃ + x₁ ^ 3 * y₂ * x₃ * y₃ ^ 2 - x₁ ^ 2 * y₁ * x₂ * x₃ ^ 3 - x₁
        ^ 2 * y₁ * x₂ * x₃ - x₁ ^ 2 * y₁ * y₂ * y₃ ^ 3 + x₁ ^ 2 * y₁ * y₂ * y₃ - x₁ * y₁ ^ 2 *
        x₂ * y₃ ^ 3 + x₁ * y₁ ^ 2 * x₂ * y₃ - x₁ * y₁ ^ 2 * y₂ * x₃ ^ 3 - x₁ * y₁ ^ 2 * y₂ *
        x₃ + x₁ * x₂ * x₃ ^ 2 * y₃ + x₁ * y₂ * x₃ * y₃ ^ 2 + y₁ ^ 3 * x₂ * x₃ * y₃ ^ 2 + y₁ ^
        3 * y₂ * x₃ ^ 2 * y₃ - y₁ * x₂ * x₃ * y₃ ^ 2 - y₁ * y₂ * x₃ ^ 2 * y₃) * h₂ +
    d * x₂ * y₂ * (x₁ ^ 3 * x₂ ^ 2 * y₂ * x₃ + x₁ ^ 3 * x₂ * y₂ ^ 2 * y₃ + x₁ ^ 2 * y₁ * x₂ ^ 3 * y₂ ^ 2
        * x₃ * d + x₁ ^ 2 * y₁ * x₂ ^ 3 * x₃ - x₁ ^ 2 * y₁ * x₂ ^ 2 * y₂ ^ 3 * y₃ * d + x₁ ^ 2
        * y₁ * y₂ ^ 3 * y₃ - x₁ * y₁ ^ 2 * x₂ ^ 3 * y₂ ^ 2 * y₃ * d - x₁ * y₁ ^ 2 * x₂ ^ 3 *
        y₃ + x₁ * y₁ ^ 2 * x₂ ^ 2 * y₂ ^ 3 * x₃ * d - x₁ * y₁ ^ 2 * y₂ ^ 3 * x₃ + x₁ * x₂ ^ 2
        * y₂ * x₃ + x₁ * x₂ * y₂ ^ 2 * y₃ - y₁ ^ 3 * x₂ ^ 2 * y₂ * y₃ - y₁ ^ 3 * x₂ * y₂ ^ 2 *
        x₃ + y₁ * x₂ ^ 2 * y₂ * y₃ + y₁ * x₂ * y₂ ^ 2 * x₃) * h₃

theorem assoc_y (h₁ : -x₁ ^ 2 + y₁ ^ 2 = 1 + d * x₁ ^ 2 * y₁ ^ 2)
    (h₂ : -x₂ ^ 2 + y₂ ^ 2 = 1 + d * x₂ ^ 2 * y₂ ^ 2)
    (h₃ : -x₃ ^ 2 + y₃ ^ 2 = 1 + d * x₃ ^ 2 * y₃ ^ 2) :
    ((y₁ * y₂ + x₁ * x₂) * (1 + d * x₁ * x₂ * y₁ * y₂) * y₃ +
        (x₁ * y₂ + x₂ * y₁) * (1 - d * x₁ * x₂ * y₁ * y₂) * x₃) *
      ((1 + d * x₂ * x₃ * y₂ * y₃) * (1 - d * x₂ * x₃ * y₂ * y₃) -
        d * x₁ * y₁ * (x₂ * y₃ + x₃ * y₂) * (y₂ * y₃ + x₂ * x₃)) =
    (y₁ * (y₂ * y₃ + x₂ * x₃) * (1 + d * x₂ * x₃ * y₂ * y₃) +
        x₁ * (x₂ * y₃ + x₃ * y₂) * (1 - d * x₂ * x₃ * y₂ * y₃)) *
      ((1 + d * x₁ * x₂ * y₁ * y₂) * (1 - d * x₁ * x₂ * y₁ * y₂) -
        d * (x₁ * y₂ + x₂ * y₁) * (y₁ * y₂ + x₁ * x₂) * x₃ * y₃) := by
  linear_combination
    d * x₂ * y₂ * (x₁ * x₂ ^ 3 * y₂ ^ 2 * x₃ * y₃ ^ 2 * d + x₁ * x₂ ^ 3 * x₃ * y₃ ^ 2 + x₁ * x₂ ^ 2 * y₂
        ^ 3 * x₃ ^ 2 * y₃ * d + x₁ * x₂ ^ 2 * y₂ * y₃ ^ 3 - x₁ * x₂ ^ 2 * y₂ * y₃ - x₁ * x₂ *
        y₂ ^ 2 * x₃ ^ 3 - x₁ * x₂ * y₂ ^ 2 * x₃ - x₁ * y₂ ^ 3 * x₃ ^ 2 * y₃ - y₁ * x₂ ^ 3 * y₂
        ^ 2 * x₃ ^ 2 * y₃ * d - y₁ * x₂ ^ 3 * x₃ ^ 2 * y₃ - y₁ * x₂ ^ 2 * y₂ ^ 3 * x₃ * y₃ ^ 2
        * d - y₁ * x₂ ^ 2 * y₂ * x₃ ^ 3 - y₁ * x₂ ^ 2 * y₂ * x₃ + y₁ * x₂ * y₂ ^ 2 * y₃ ^ 3 -
        y₁ * x₂ * y₂ ^ 2 * y₃ + y₁ * y₂ ^ 3 * x₃ * y₃ ^ 2) * h₁ +
    d * x₂ * y₂ * (-x₁ ^ 3 * x₂ * x₃ * y₃ ^ 2 - x₁ ^ 3 * y₂ * x₃ ^ 2 * y₃ + x₁ ^ 2 * y₁ * x₂ * y₃ ^ 3 -
        x₁ ^ 2 * y₁ * x₂ * y₃ + x₁ ^ 2 * y₁ * y₂ * x₃ ^ 3 + x₁ ^ 2 * y₁ * y₂ * x₃ + x₁ * y₁ ^
        2 * x₂ * x₃ ^ 3 + x₁ * y₁ ^ 2 * x₂ * x₃ + x₁ * y₁ ^ 2 * y₂ * y₃ ^ 3 - x₁ * y₁ ^ 2 * y₂
        * y₃ - x₁ * x₂ * x₃ * y₃ ^ 2 - x₁ * y₂ * x₃ ^ 2 * y₃ - y₁ ^ 3 * x₂ * x₃ ^ 2 * y₃ - y₁
        ^ 3 * y₂ * x₃ * y₃ ^ 2 + y₁ * x₂ * x₃ ^ 2 * y₃ + y₁ * y₂ * x₃ * y₃ ^ 2) * h₂ +
    d * x₂ * y₂ * (x₁ ^ 3 * x₂ ^ 2 * y₂ * y₃ + x₁ ^ 3 * x₂ * y₂ ^ 2 * x₃ + x₁ ^ 2 * y₁ * x₂ ^ 3 * y₂ ^ 2
        * y₃ * d + x₁ ^ 2 * y₁ * x₂ ^ 3 * y₃ - x₁ ^ 2 * y₁ * x₂ ^ 2 * y₂ ^ 3 * x₃ * d + x₁ ^ 2
        * y₁ * y₂ ^ 3 * x₃ - x₁ * y₁ ^ 2 * x₂ ^ 3 * y₂ ^ 2 * x₃ * d - x₁ * y₁ ^ 2 * x₂ ^ 3 *
        x₃ + x₁ * y₁ ^ 2 * x₂ ^ 2 * y₂ ^ 3 * y₃ * d - x₁ * y₁ ^ 2 * y₂ ^ 3 * y₃ + x₁ * x₂ ^ 2
        * y₂ * y₃ + x₁ * x₂ * y₂ ^ 2 * x₃ - y₁ ^ 3 * x₂ ^ 2 * y₂ * x₃ - y₁ ^ 3 * x₂ * y₂ ^ 2 *
        y₃ + y₁ * x₂ ^ 2 * y₂ * x₃ + y₁ * x₂ * y₂ ^ 2 * y₃) * h₃

end Identities

instance : Zero (EdwardsPoint d) := ⟨⟨0, 1, by ring⟩⟩

instance : Neg (EdwardsPoint d) := ⟨fun P => ⟨-P.x, P.y, by linear_combination P.equation⟩⟩

theorem zero_x : (0 : EdwardsPoint d).x = 0 := rfl

@[simp] theorem zero_y : (0 : EdwardsPoint d).y = 1 := rfl

@[simp] theorem neg_x (P : EdwardsPoint d) : (-P).x = -P.x := rfl

@[simp] theorem neg_y (P : EdwardsPoint d) : (-P).y = P.y := rfl

section Group

variable [CompleteEdwards d] (P Q R : EdwardsPoint d)

instance : Add (EdwardsPoint d) where
  add P Q :=
    ⟨(P.x * Q.y + Q.x * P.y) / (1 + d * P.x * Q.x * P.y * Q.y),
      (P.y * Q.y + P.x * Q.x) / (1 - d * P.x * Q.x * P.y * Q.y),
      quotient_equation (one_add_ne_zero P Q) (one_sub_ne_zero P Q)
        (closure_identity P.equation Q.equation)⟩

theorem add_x : (P + Q).x = (P.x * Q.y + Q.x * P.y) / (1 + d * P.x * Q.x * P.y * Q.y) := rfl

theorem add_y : (P + Q).y = (P.y * Q.y + P.x * Q.x) / (1 - d * P.x * Q.x * P.y * Q.y) := rfl

theorem add_x_mul : (P + Q).x * (1 + d * P.x * Q.x * P.y * Q.y) = P.x * Q.y + Q.x * P.y :=
  div_mul_cancel₀ _ (one_add_ne_zero P Q)

theorem add_y_mul : (P + Q).y * (1 - d * P.x * Q.x * P.y * Q.y) = P.y * Q.y + P.x * Q.x :=
  div_mul_cancel₀ _ (one_sub_ne_zero P Q)

theorem add_swap : P + Q = Q + P := by
  ext
  · rw [add_x, add_x]
    congr 1 <;> ring
  · rw [add_y, add_y]
    congr 1 <;> ring

/-- The product of the denominators of a sum of two points. -/
def denominators : K := (1 + d * P.x * Q.x * P.y * Q.y) * (1 - d * P.x * Q.x * P.y * Q.y)

theorem denominators_ne_zero : denominators P Q ≠ 0 :=
  mul_ne_zero (one_add_ne_zero P Q) (one_sub_ne_zero P Q)

theorem add_assoc_x : (P + Q + R).x = (P + (Q + R)).x := by
  have hidentity := assoc_x P.equation Q.equation R.equation
  rw [← add_x_mul P Q, ← add_y_mul P Q, ← add_x_mul Q R, ← add_y_mul Q R] at hidentity
  have hcleared : denominators P Q * ((P + Q).x * R.y + R.x * (P + Q).y) *
        (denominators Q R * (1 + d * P.x * (Q + R).x * P.y * (Q + R).y)) =
      denominators Q R * (P.x * (Q + R).y + (Q + R).x * P.y) *
        (denominators P Q * (1 + d * (P + Q).x * R.x * (P + Q).y * R.y)) := by
    unfold denominators
    linear_combination hidentity
  rw [← add_x_mul (P + Q) R, ← add_x_mul P (Q + R)] at hcleared
  have hne := mul_ne_zero (mul_ne_zero (denominators_ne_zero P Q) (denominators_ne_zero Q R))
    (mul_ne_zero (one_add_ne_zero (P + Q) R) (one_add_ne_zero P (Q + R)))
  apply mul_right_cancel₀ hne
  linear_combination hcleared

theorem add_assoc_y : (P + Q + R).y = (P + (Q + R)).y := by
  have hidentity := assoc_y P.equation Q.equation R.equation
  rw [← add_x_mul P Q, ← add_y_mul P Q, ← add_x_mul Q R, ← add_y_mul Q R] at hidentity
  have hcleared : denominators P Q * ((P + Q).y * R.y + (P + Q).x * R.x) *
        (denominators Q R * (1 - d * P.x * (Q + R).x * P.y * (Q + R).y)) =
      denominators Q R * (P.y * (Q + R).y + P.x * (Q + R).x) *
        (denominators P Q * (1 - d * (P + Q).x * R.x * (P + Q).y * R.y)) := by
    unfold denominators
    linear_combination hidentity
  rw [← add_y_mul (P + Q) R, ← add_y_mul P (Q + R)] at hcleared
  have hne := mul_ne_zero (mul_ne_zero (denominators_ne_zero P Q) (denominators_ne_zero Q R))
    (mul_ne_zero (one_sub_ne_zero (P + Q) R) (one_sub_ne_zero P (Q + R)))
  apply mul_right_cancel₀ hne
  linear_combination hcleared

theorem zero_add_point : 0 + P = P := by
  ext
  · simp [add_x, zero_x]
  · simp [add_y, zero_x]

/-- The curve equation is the statement that the second coordinate is one. -/
theorem neg_add_point : -P + P = 0 := by
  ext
  · simp [add_x, zero_x, mul_comm]
  · have hne := one_sub_ne_zero (-P) P
    rw [add_y, zero_y, div_eq_one_iff_eq hne]
    simp only [neg_x, neg_y]
    linear_combination P.equation

instance : AddCommGroup (EdwardsPoint d) where
  __ := AddGroup.ofLeftAxioms
    (fun P Q R => EdwardsPoint.ext (add_assoc_x P Q R) (add_assoc_y P Q R)) zero_add_point neg_add_point
  add_comm := add_swap

end Group

end EdwardsPoint

end DeniableHandshake
