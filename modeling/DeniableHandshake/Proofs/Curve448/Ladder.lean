import DeniableHandshake.Proofs.Curve448.Field
import DeniableHandshake.Proofs.Curve448.Montgomery

/-!
# The ladder computes multiples

A step of the ladder takes the coordinates of two neighbouring multiples of a point to those of the
two multiples that the next bit of the scalar names. From the point at infinity and the point itself
the ladder therefore climbs to the multiple by the whole scalar.
-/
namespace DeniableHandshake.Curve448

open Montgomery Residue
open WeierstrassCurve.Affine (Point)

abbrev curve : WeierstrassCurve.Affine (ZMod prime) := montgomery (coefficient : ZMod prime)

namespace Ladder

/-- A step on the field. The subtractions need reduced coordinates. -/
theorem cast_doubleAndAdd {s : State} (u : Nat) (hz₂ : s.z₂ ≤ prime) (hz₃ : s.z₃ ≤ prime) :
    ((doubleAndAdd u s).x₂ : ZMod prime) = ((s.x₂ : ZMod prime) ^ 2 - (s.z₂ : ZMod prime) ^ 2) ^ 2 ∧
    ((doubleAndAdd u s).z₂ : ZMod prime) = 4 * s.x₂ * s.z₂ *
      ((s.x₂ : ZMod prime) ^ 2 + coefficient * s.x₂ * s.z₂ + (s.z₂ : ZMod prime) ^ 2) ∧
    ((doubleAndAdd u s).x₃ : ZMod prime) = 4 * ((s.x₃ : ZMod prime) * s.x₂ - s.z₃ * s.z₂) ^ 2 ∧
    ((doubleAndAdd u s).z₃ : ZMod prime) = 4 * u * ((s.x₃ : ZMod prime) * s.z₂ - s.x₂ * s.z₃) ^ 2 := by
  have hle (a b : Nat) : mul a b ≤ prime := (mul_lt a b).le
  have hquarter : (coefficient : ZMod prime) = 4 * ((coefficient - 2) / 4 : ℕ) + 2 := by
    norm_num [coefficient]
  simp only [doubleAndAdd, cast_mul, cast_add, cast_sub _ hz₂, cast_sub _ hz₃, cast_sub _ (hle _ _)]
  refine ⟨by ring, ?_, by ring, by ring⟩
  linear_combination (-4 * (s.x₂ : ZMod prime) ^ 2 * (s.z₂ : ZMod prime) ^ 2) * hquarter

/-- The two points of a state, with coordinates that a step can subtract. -/
structure State.IsAt (s : State) (P Q : curve.Point) : Prop where
  first : Montgomery.IsAt (s.x₂ : ZMod prime) s.z₂ P
  second : Montgomery.IsAt (s.x₃ : ZMod prime) s.z₃ Q
  z₂_le : s.z₂ ≤ prime
  z₃_le : s.z₃ ≤ prime

namespace State.IsAt

variable {s : State} {P Q : curve.Point} {u : Nat} {x v : ZMod prime}
  {hD : curve.Nonsingular x v}

theorem swap (h : s.IsAt P Q) : (swapIf true s).IsAt Q P := ⟨h.second, h.first, h.z₃_le, h.z₂_le⟩

theorem start (hD : curve.Nonsingular (u : ZMod prime) v) :
    (start u).IsAt (0 • Point.some _ _ hD) ((0 + 1) • Point.some _ _ hD) := by
  rw [zero_nsmul, zero_add, one_nsmul]
  refine ⟨?_, ?_, Nat.zero_le _, prime_prime.one_le⟩
  · simp [Ladder.start, isAt_zero]
  · simp [Ladder.start, isAt_some]

theorem doubleAndAdd (hu : (u : ZMod prime) ≠ 0) (h : s.IsAt P Q)
    {hD : curve.Nonsingular (u : ZMod prime) v} (hQ : Q = P + .some _ _ hD) :
    (doubleAndAdd u s).IsAt (P + P) (P + Q) := by
  obtain ⟨hx₂, hz₂, hx₃, hz₃⟩ := cast_doubleAndAdd u h.z₂_le h.z₃_le
  have hdouble := h.first.double cast_two_ne_zero cast_coefficient_sq_ne_four
  have hsum := h.first.add cast_two_ne_zero cast_coefficient_sq_ne_four hu h.second hQ
  rw [← hx₂, ← hz₂] at hdouble
  rw [← hx₃, ← hz₃] at hsum
  exact ⟨hdouble, hsum, (mul_lt _ _).le, (mul_lt _ _).le⟩

variable {n k : Nat} {hD : curve.Nonsingular (u : ZMod prime) v}

/-- From the multiple by `n` and the next one to those by `2 n` and by `2 n + 1`, as the bit says. -/
theorem step (hu : (u : ZMod prime) ≠ 0)
    (h : s.IsAt (n • Point.some _ _ hD) ((n + 1) • Point.some _ _ hD)) (bit : Bool) :
    (step u bit s).IsAt ((2 * n + bit.toNat) • Point.some _ _ hD)
      ((2 * n + bit.toNat + 1) • Point.some _ _ hD) := by
  cases bit with
  | false =>
    have hstep := h.doubleAndAdd hu (succ_nsmul _ n)
    rwa [← add_nsmul, ← add_nsmul, ← two_mul, ← add_assoc, ← two_mul] at hstep
  | true =>
    have hback : n • Point.some _ _ hD = (n + 1) • Point.some _ _ hD + -Point.some _ _ hD := by
      rw [succ_nsmul, add_neg_cancel_right]
    rw [Point.neg_some] at hback
    have hstep := (h.swap.doubleAndAdd hu hback).swap
    have hodd : n + 1 + n = 2 * n + 1 := by omega
    have heven : n + 1 + (n + 1) = 2 * n + 1 + 1 := by omega
    rwa [← add_nsmul, ← add_nsmul, hodd, heven] at hstep

theorem climb (hu : (u : ZMod prime) ≠ 0)
    (h : s.IsAt ((k >>> n) • Point.some _ _ hD) ((k >>> n + 1) • Point.some _ _ hD)) :
    (climb u k n s).IsAt (k • Point.some _ _ hD) ((k + 1) • Point.some _ _ hD) := by
  induction n generalizing s with
  | zero => exact h
  | succ n ih =>
    have hbit : k >>> n = 2 * (k >>> (n + 1)) + (k.testBit n).toNat := by
      rw [Nat.shiftRight_succ, Nat.toNat_testBit, ← Nat.shiftRight_eq_div_pow]
      omega
    apply ih
    rw [hbit]
    exact h.step hu (k.testBit n)

end State.IsAt

end Ladder

theorem ladder_lt (k u : Nat) : ladder k u < prime := Ladder.mul_lt _ _

/-- The ladder gives the coordinate of the multiple by a scalar of at most 448 bits. -/
theorem cast_ladder {u k : Nat} {v : ZMod prime} (hu : (u : ZMod prime) ≠ 0) (hk : k >>> 448 = 0)
    (hD : curve.Nonsingular (u : ZMod prime) v) :
    (ladder k u : ZMod prime) = coordinate (k • Point.some _ _ hD) := by
  have hstart : (Ladder.start u).IsAt ((k >>> 448) • Point.some _ _ hD)
      ((k >>> 448 + 1) • Point.some _ _ hD) := by
    rw [hk]
    exact Ladder.State.IsAt.start hD
  have hclimb := (hstart.climb hu).first.coordinate_eq
  rw [ladder, Ladder.cast_mul, cast_modPow_sub_two (by decide)]
  exact hclimb.symm

/-! ### Multiples of the base point -/

def baseOrdinate : Nat :=
  355293926785568175264127502063783334808976399387714271831880898435169088786967410002932673765864550910142774147268105838985595290606362

theorem nonsingular_base : curve.Nonsingular ((5 : ℕ) : ZMod prime) (baseOrdinate : ZMod prime) := by
  have hcurve : baseOrdinate ^ 2 % prime = (5 ^ 3 + coefficient * 5 ^ 2 + 5) % prime := by
    decide
  have hcast := (ZMod.natCast_eq_natCast_iff' _ _ prime).mpr hcurve
  have hordinate : (baseOrdinate : ZMod prime) ≠ 0 := cast_ne_zero_of_lt (by decide) (by decide)
  apply nonsingular_of_ne_zero cast_two_ne_zero hordinate
  rw [equation_iff]
  exact_mod_cast hcast

def basePoint : curve.Point := .some _ _ nonsingular_base

/-- The multiple of a multiple, unless the first one counts as zero, where the ladder loses it. -/
theorem cast_ladder_ladder {a b : Nat} (ha : a >>> 448 = 0) (hb : b >>> 448 = 0)
    (hne : ladder b 5 ≠ 0) : (ladder a (ladder b 5) : ZMod prime) = coordinate (a • b • basePoint) := by
  have hfive : ((5 : ℕ) : ZMod prime) ≠ 0 := cast_ne_zero_of_lt (by decide) (by decide)
  have hcast : (ladder b 5 : ZMod prime) = coordinate (b • basePoint) :=
    cast_ladder hfive hb nonsingular_base
  have hladder : (ladder b 5 : ZMod prime) ≠ 0 := cast_ne_zero_of_lt (ladder_lt b 5) hne
  cases hmultiple : b • basePoint with
  | zero =>
    rw [hmultiple] at hcast
    exact absurd hcast hladder
  | some x y hxy =>
    rw [hmultiple] at hcast
    obtain rfl : (ladder b 5 : ZMod prime) = x := hcast
    exact cast_ladder hladder ha hxy

end DeniableHandshake.Curve448
