import DeniableHandshake.Proofs.Signature.Field

/-!
# Extended coordinates

The operations on extended coordinates are the operations of the group of the curve, and the multiples
of the base point repeat with the order.
-/
namespace DeniableHandshake.Edwards25519

open Residue

abbrev Curve : Type := EdwardsPoint (d : ZMod prime)

namespace Point

/-- Extended coordinates of a point of the curve. Two of them are subtracted somewhere, so they are
reduced. -/
structure IsAt (P : Point) (p : Curve) : Prop where
  Z_ne_zero : (P.Z : ZMod prime) ≠ 0
  X_eq : (P.X : ZMod prime) = p.x * P.Z
  Y_eq : (P.Y : ZMod prime) = p.y * P.Z
  T_eq : (P.T : ZMod prime) = p.x * p.y * P.Z
  X_le : P.X ≤ prime
  T_le : P.T ≤ prime

variable {P Q : Point} {p q : Curve}

theorem isAt_ofAffine {x y : Nat} (hx : x < prime) (hpx : (x : ZMod prime) = p.x)
    (hpy : (y : ZMod prime) = p.y) : (ofAffine x y).IsAt p := by
  refine ⟨?_, ?_, ?_, ?_, hx.le, (mul_lt _ _).le⟩
  · simp [ofAffine]
  · simp [ofAffine, hpx]
  · simp [ofAffine, hpy]
  · simp [ofAffine, cast_mul, hpx, hpy]

theorem isAt_neutral : neutral.IsAt 0 :=
  isAt_ofAffine prime_prime.pos Nat.cast_zero Nat.cast_one

theorem IsAt.neg (h : P.IsAt p) : P.neg.IsAt (-p) := by
  refine ⟨h.Z_ne_zero, ?_, h.Y_eq, ?_, (sub_lt _ _).le, (sub_lt _ _).le⟩
  · simp only [Point.neg, cast_sub _ h.X_le, h.X_eq, EdwardsPoint.neg_x]
    ring
  · simp only [Point.neg, cast_sub _ h.T_le, h.T_eq, EdwardsPoint.neg_x, EdwardsPoint.neg_y]
    ring

/-- The coordinates of a sum are products of the numerators and the denominators of its quotients, each
times `2 Z₁ Z₂`. -/
theorem IsAt.plus (hP : P.IsAt p) (hQ : Q.IsAt q) : (P.plus Q).IsAt (p + q) := by
  have hle (a b : Nat) : mul a b ≤ prime := (mul_lt a b).le
  have hx := EdwardsPoint.add_x_mul p q
  have hy := EdwardsPoint.add_y_mul p q
  have hscale : (2 * P.Z * Q.Z : ZMod prime) ≠ 0 :=
    mul_ne_zero (mul_ne_zero cast_two_ne_zero hP.Z_ne_zero) hQ.Z_ne_zero
  refine ⟨?_, ?_, ?_, ?_, hle _ _, hle _ _⟩ <;>
    simp only [Point.plus, cast_mul, cast_add, cast_sub _ (hle _ _), cast_sub _ hP.X_le,
      cast_sub _ hQ.X_le, hP.X_eq, hP.Y_eq, hP.T_eq, hQ.X_eq, hQ.Y_eq, hQ.T_eq, Nat.cast_ofNat]
  · have hne := mul_ne_zero (mul_ne_zero hscale (EdwardsPoint.one_sub_ne_zero p q))
      (mul_ne_zero hscale (EdwardsPoint.one_add_ne_zero p q))
    intro hzero
    apply hne
    linear_combination hzero
  · linear_combination
      -(2 * P.Z * Q.Z : ZMod prime) ^ 2 * (1 - d * p.x * q.x * p.y * q.y) * hx
  · linear_combination
      -(2 * P.Z * Q.Z : ZMod prime) ^ 2 * (1 + d * p.x * q.x * p.y * q.y) * hy
  · linear_combination
      -(2 * P.Z * Q.Z : ZMod prime) ^ 2 * ((p.y * q.y + p.x * q.x) * hx +
        (p + q).x * (1 + d * p.x * q.x * p.y * q.y) * hy)

theorem IsAt.times (h : P.IsAt p) (n : Nat) : (times n P).IsAt (n • p) := by
  induction n using Nat.strongRecOn generalizing P p with
  | ind n ih =>
    rw [Point.times]
    by_cases hn : n = 0
    · rw [if_pos hn, hn, zero_nsmul]
      exact isAt_neutral
    · rw [if_neg hn]
      have hhalf := ih (n / 2) (by omega) (h.plus h)
      rw [← two_nsmul, smul_smul] at hhalf
      by_cases hodd : n % 2 = 1
      · have hn' : n = n / 2 * 2 + 1 := by omega
        have hsum := hhalf.plus h
        rw [← succ_nsmul, ← hn'] at hsum
        simpa only [if_pos hodd] using hsum
      · have hn' : n = n / 2 * 2 := by omega
        rw [← hn'] at hhalf
        simpa only [if_neg hodd] using hhalf

end Point

/-! ## The base point -/

theorem base_equation : -(Point.base.X : ZMod prime) ^ 2 + (Point.base.Y : ZMod prime) ^ 2 =
    1 + d * (Point.base.X : ZMod prime) ^ 2 * (Point.base.Y : ZMod prime) ^ 2 := by
  have hreduced : mul Point.base.Y Point.base.Y =
      add (mul Point.base.X Point.base.X)
        (add 1 (mul (mul d (mul Point.base.X Point.base.X)) (mul Point.base.Y Point.base.Y))) := by
    decide
  have hcast := congrArg (Nat.cast : ℕ → ZMod prime) hreduced
  simp only [cast_add, cast_mul, Nat.cast_one] at hcast
  linear_combination hcast

def basePoint : Curve := ⟨Point.base.X, Point.base.Y, base_equation⟩

theorem isAt_base : Point.base.IsAt basePoint := Point.isAt_ofAffine (by decide) rfl rfl

/-- Coordinates of the neutral element. -/
theorem Point.IsAt.eq_zero {P : Point} {p : Curve} (h : P.IsAt p) (hX : P.X = 0) (hY : P.Y = P.Z) :
    p = 0 := by
  have hx := h.X_eq
  have hy := h.Y_eq
  rw [hX, Nat.cast_zero, zero_eq_mul] at hx
  rw [hY, eq_comm, mul_eq_right₀ h.Z_ne_zero] at hy
  ext
  · exact hx.resolve_right h.Z_ne_zero
  · exact hy

theorem order_nsmul_basePoint : order • basePoint = 0 := by
  have hcoordinates : (Point.times order .base).X = 0 ∧
      (Point.times order .base).Y = (Point.times order .base).Z := by decide +kernel
  exact (isAt_base.times order).eq_zero hcoordinates.1 hcoordinates.2

theorem mod_order_nsmul_basePoint (n : Nat) : (n % order) • basePoint = n • basePoint := by
  have hsplit := congrArg (· • basePoint) (Nat.div_add_mod n order)
  simp only [add_nsmul, mul_nsmul, order_nsmul_basePoint, nsmul_zero, zero_add] at hsplit
  exact hsplit

end DeniableHandshake.Edwards25519
