import DeniableHandshake.Proofs.Arithmetic.Residue
import DeniableHandshake.Proofs.Curve448.Montgomery
import Mathlib.FieldTheory.IsAlgClosed.AlgebraicClosure

/-!
# Primality by a point of large prime order

If the order of a point is a prime `q`, then its multiples other than infinity have `(q - 1) / 2`
different abscissas. Modulo a prime `r` there are `r` residues, so `q` is at most `2 r + 1`. If
`(q - 1) ^ 2` is more than `4 N`, then `N` has no prime factor `r` with `r ^ 2 ≤ N`, and is prime itself.

The curve is `y² = x³ + a x² + a x`, and only abscissas are computed, by a ladder modulo `N`. The
ordinates may lie outside the residues. In an algebraic closure the curve is the Montgomery curve whose
coefficient is a root of `a`, with the abscissas divided by that root.
-/
namespace DeniableHandshake

open Montgomery
open WeierstrassCurve.Affine (Point)

/-- The multiple by `cofactor` of the point at `abscissa` has a known prime `q` as its order, modulo every
prime factor of the number. -/
structure EllipticCertificate where
  cofactor : Nat
  abscissa : Nat
  /-- The trace of the curve, which tells the number from the order. -/
  trace : Int
  coefficient : Nat

namespace EllipticCertificate

/-! ### The check -/

section Ladder

variable (N a u : Nat)

/-- The difference as a residue, not reduced. -/
def difference (s t : Nat) : Nat := s + (N - 1) * t

def doubleX (x z : Nat) : Nat := difference N (x * x) (a * (z * z)) ^ 2 % N

def doubleZ (x z : Nat) : Nat := 4 * (x * z) * (x * x + a * (x * z + z * z)) % N

def sumX (x z x' z' : Nat) : Nat := 4 * difference N (x' * x) (a * (z' * z)) ^ 2 % N

def sumZ (x z x' z' : Nat) : Nat := 4 * u * difference N (x' * z) (x * z') ^ 2 % N

/-- Goes on with a number that the kernel has evaluated. -/
def force {α : Type} (n : Nat) (k : Nat → α) : α := Nat.rec (k 0) (fun m _ => k (Nat.succ m)) n

theorem force_eq {α : Type} (n : Nat) (k : Nat → α) : force n k = k n := by
  cases n <;> rfl

section Kernel
open Nat (add mul sub pow mod)

/-- Goes on with the first point doubled and the sum of both. The operations of the kernel are named, since
the classes of the usual ones cost more than the arithmetic. -/
def doubleAndAdd {β : Type} (x z x' z' : Nat) (k : Nat → Nat → Nat → Nat → β) : β :=
  force (mod (pow (add (mul x x) (mul (sub N 1) (mul a (mul z z)))) 2) N) fun x₂ =>
  force (mod (mul (mul 4 (mul x z)) (add (mul x x) (mul a (add (mul x z) (mul z z))))) N) fun z₂ =>
  force (mod (mul 4 (pow (add (mul x' x) (mul (sub N 1) (mul a (mul z' z)))) 2)) N) fun x₃ =>
  force (mod (mul (mul 4 u) (pow (add (mul x' z) (mul (sub N 1) (mul x z'))) 2)) N) fun z₃ =>
  k x₂ z₂ x₃ z₃

end Kernel

theorem doubleAndAdd_eq {β : Type} (x z x' z' : Nat) (k : Nat → Nat → Nat → Nat → β) :
    doubleAndAdd N a u x z x' z' k =
      k (doubleX N a x z) (doubleZ N a x z) (sumX N a x z x' z') (sumZ N u x z x' z') := by
  simp only [doubleAndAdd, force_eq]
  rfl

/-- The denominator that the low `n` bits of `k` lead to, highest first, from two neighbouring
multiples. -/
def climb (k : Nat) : Nat → Nat → Nat → Nat → Nat → Nat
  | 0, _, z, _, _ => z
  | n + 1, x, z, x', z' =>
    match Nat.mod (Nat.shiftRight k n) 2 with
    | 0 => doubleAndAdd N a u x z x' z' fun x z x' z' => climb k n x z x' z'
    | _ + 1 => doubleAndAdd N a u x' z' x z fun x' z' x z => climb k n x z x' z'

theorem climb_of_even {k n : Nat} (h : (k >>> n) % 2 = 0) (x z x' z' : Nat) :
    climb N a u k (n + 1) x z x' z' =
      climb N a u k n (doubleX N a x z) (doubleZ N a x z) (sumX N a x z x' z') (sumZ N u x z x' z') := by
  have hbit : Nat.mod (Nat.shiftRight k n) 2 = 0 := h
  rw [climb, hbit]
  exact doubleAndAdd_eq N a u x z x' z' _

theorem climb_of_odd {k n : Nat} (h : (k >>> n) % 2 = 1) (x z x' z' : Nat) :
    climb N a u k (n + 1) x z x' z' =
      climb N a u k n (sumX N a x' z' x z) (sumZ N u x' z' x z) (doubleX N a x' z')
        (doubleZ N a x' z') := by
  have hbit : Nat.mod (Nat.shiftRight k n) 2 = 1 := h
  rw [climb, hbit]
  exact doubleAndAdd_eq N a u x' z' x z _

/-- The denominator of the abscissa of the multiple by `k`. -/
def denominator (k : Nat) : Nat := climb N a u k (Nat.log2 k + 1) 1 0 u 1

end Ladder

def number (q : Nat) (c : EllipticCertificate) : Nat := (c.cofactor * q + c.trace - 1).toNat

/-- What must not vanish modulo any prime factor. -/
def units (N a : Nat) (c : EllipticCertificate) : Nat :=
  2 * a * difference N a 4 * c.abscissa * (c.abscissa * c.abscissa + a * c.abscissa + a) *
    denominator N a c.abscissa c.cofactor

def check (q : Nat) (c : EllipticCertificate) : Bool :=
  force (c.number q) fun N => force c.coefficient fun a =>
    decide (1 < N) && decide (4 * N < (q - 1) ^ 2) && Nat.gcd (units N a c) N == 1 &&
      denominator N a c.abscissa (c.cofactor * q) == 0

/-- Each certificate starts from the number of the one before it. -/
def checkAll : Nat → List EllipticCertificate → Bool
  | _, [] => true
  | q, c :: cs => c.check q && force (c.number q) fun N => checkAll N cs

/-- The number of the last certificate. -/
def arrival (q : Nat) (cs : List EllipticCertificate) : Nat := cs.foldl (fun q c => c.number q) q

/-! ### The ladder on the curve -/

variable {K : Type*} [Field K] {α : K} {N a u : ℕ}

/-- The abscissa of the point is `x / z`, seen on the Montgomery curve. -/
def At (α : K) (x z : ℕ) (P : (montgomery α).Point) : Prop := IsAt (x : K) (α * z) P

theorem At.coordinate_eq {P : (montgomery α).Point} {x z : ℕ} (hα : α ≠ 0) (h : At α x z P) :
    α * coordinate P = x / z := by
  rw [IsAt.coordinate_eq h, mul_inv, mul_left_comm, mul_inv_cancel_left₀ hα, div_eq_mul_inv]

theorem cast_mod (hN : (N : K) = 0) (n : ℕ) : ((n % N : ℕ) : K) = n := by
  have h := congrArg (Nat.cast : ℕ → K) (Nat.div_add_mod n N)
  rwa [Nat.cast_add, Nat.cast_mul, hN, zero_mul, zero_add] at h

theorem cast_difference (hpos : 0 < N) (hN : (N : K) = 0) (s t : ℕ) :
    (difference N s t : K) = s - t := by
  rw [difference, Nat.cast_add, Nat.cast_mul, Nat.cast_sub hpos, hN, Nat.cast_one, zero_sub, neg_one_mul,
    sub_eq_add_neg]

/-- The modulus vanishes in the field, where neither the curve nor the abscissa is degenerate. -/
structure Regular (α : K) (N a u : ℕ) : Prop where
  pos : 0 < N
  modulus : (N : K) = 0
  two : (2 : K) ≠ 0
  root : α ^ 2 = a
  coefficient : (a : K) ≠ 0
  discriminant : (a : K) ≠ 4
  abscissa : (u : K) ≠ 0

namespace Regular

variable {P Q : (montgomery α).Point} {x z x' z' n k : ℕ} {v : K}

theorem root_ne_zero (g : Regular α N a u) : α ≠ 0 := by
  have h := g.coefficient
  rw [← g.root] at h
  exact pow_ne_zero_iff (by decide) |>.mp h

theorem sq_ne_four (g : Regular α N a u) : α ^ 2 ≠ 4 := by
  rw [g.root]
  exact g.discriminant

variable [DecidableEq K]

theorem double (g : Regular α N a u) (h : At α x z P) :
    At α (doubleX N a x z) (doubleZ N a x z) (P + P) := by
  have hdouble := IsAt.double g.two g.sq_ne_four h
  rw [At, doubleX, doubleZ, cast_mod g.modulus, cast_mod g.modulus, Nat.cast_pow,
    cast_difference g.pos g.modulus]
  convert hdouble using 1
  · push_cast [← g.root]
    ring
  · push_cast [← g.root]
    ring

theorem sum (g : Regular α N a u) {hD : (montgomery α).Nonsingular (u / α) v} (h : At α x z P)
    (h' : At α x' z' Q) (hQ : Q = P + .some _ _ hD) :
    At α (sumX N a x z x' z') (sumZ N u x z x' z') (P + Q) := by
  have hu : (u : K) / α ≠ 0 := div_ne_zero g.abscissa g.root_ne_zero
  have hroot : (u : K) / α * α = u := div_mul_cancel₀ _ g.root_ne_zero
  have hsum := IsAt.add g.two g.sq_ne_four hu h h' hQ
  rw [At, sumX, sumZ, cast_mod g.modulus, cast_mod g.modulus, Nat.cast_mul, Nat.cast_mul, Nat.cast_pow,
    Nat.cast_pow, cast_difference g.pos g.modulus, cast_difference g.pos g.modulus]
  convert hsum using 1
  · push_cast [← g.root]
    ring
  · push_cast
    linear_combination (-4 * α * (x' * z - x * z') ^ 2) * hroot

/-- From the multiple by `n` and the next one to those by `2 n` and by `2 n + 1`, as the bit says. -/
theorem climb (g : Regular α N a u) {hD : (montgomery α).Nonsingular (u / α) v}
    (h : At α x z ((k >>> n) • Point.some _ _ hD))
    (h' : At α x' z' ((k >>> n + 1) • Point.some _ _ hD)) :
    ∃ y, At α y (climb N a u k n x z x' z') (k • Point.some _ _ hD) := by
  induction n generalizing x z x' z' with
  | zero => exact ⟨x, h⟩
  | succ n ih =>
    have hbit : k >>> n = 2 * (k >>> (n + 1)) + (k >>> n) % 2 := by
      rw [Nat.shiftRight_succ, Nat.div_add_mod]
    rcases Nat.mod_two_eq_zero_or_one (k >>> n) with heven | hodd
    · have hdouble := g.double h
      have hsum := g.sum h h' (succ_nsmul _ _)
      rw [← add_nsmul] at hdouble hsum
      rw [climb_of_even N a u heven]
      apply ih
      · convert hdouble using 2
        omega
      · convert hsum using 2
        omega
    · -- the points change places, and then they differ by the opposite of the base point
      have hback : (k >>> (n + 1)) • Point.some _ _ hD =
          (k >>> (n + 1) + 1) • Point.some _ _ hD + -Point.some _ _ hD := by
        rw [succ_nsmul, add_neg_cancel_right]
      rw [Point.neg_some] at hback
      have hdouble := g.double h'
      have hsum := g.sum h' h hback
      rw [← add_nsmul] at hdouble hsum
      rw [climb_of_odd N a u hodd]
      apply ih
      · convert hsum using 2
        omega
      · convert hdouble using 2
        omega

theorem denominator (g : Regular α N a u) (hD : (montgomery α).Nonsingular (u / α) v) (k : ℕ) :
    ∃ y, At α y (denominator N a u k) (k • Point.some _ _ hD) := by
  have hbits : k >>> (k.log2 + 1) = 0 := by
    rw [Nat.shiftRight_eq_div_pow]
    exact Nat.div_eq_of_lt Nat.lt_log2_self
  apply g.climb
  · rw [hbits, zero_nsmul]
    simp [At, isAt_zero]
  · rw [hbits, zero_add, one_nsmul, At, isAt_some]
    simp [g.root_ne_zero]

end Regular

/-! ### Counting abscissas -/

section Counting

variable {P Q : (montgomery α).Point}

theorem eq_or_eq_neg_of_coordinate_eq (hP : P ≠ 0) (hQ : Q ≠ 0) (h : coordinate P = coordinate Q) :
    P = Q ∨ P = -Q := by
  cases P with
  | zero => exact absurd rfl hP
  | some x y hxy =>
    cases Q with
    | zero => exact absurd rfl hQ
    | some x' y' hxy' => exact Point.X_eq_iff.mp h

variable [DecidableEq K]

/-- A field that tells the coordinates of the multiples apart has at least half as many elements as
there are multiples other than zero. -/
theorem half_le_card {F : Type*} [Fintype F] {q : ℕ} (hq : q.Prime) (hP : P ≠ 0) (hqP : q • P = 0)
    (f : ℕ → F) (hf : ∀ i j, f i = f j → coordinate (i • P) = coordinate (j • P)) :
    (q - 1) / 2 ≤ Fintype.card F := by
  have : Fact q.Prime := ⟨hq⟩
  have horder : addOrderOf P = q := addOrderOf_eq_prime hqP hP
  have hne (i : ℕ) (hpos : 0 < i) (hi : i < q) : i • P ≠ 0 := by
    intro h
    have hdvd := addOrderOf_dvd_of_nsmul_eq_zero h
    rw [horder] at hdvd
    exact absurd (Nat.le_of_dvd hpos hdvd) (Nat.not_le.mpr hi)
  have hinjective : Function.Injective fun i : Fin ((q - 1) / 2) => f (i + 1) := by
    intro i j hij
    have hi := i.isLt
    have hj := j.isLt
    have hcoordinate := hf _ _ hij
    rcases eq_or_eq_neg_of_coordinate_eq (hne _ (by omega) (by omega)) (hne _ (by omega) (by omega))
      hcoordinate with hsame | hopposite
    · have hmod := nsmul_eq_nsmul_iff_modEq.mp hsame
      rw [horder] at hmod
      have heq := hmod.eq_of_lt_of_lt (by omega) (by omega)
      exact Fin.ext (Nat.succ.inj heq)
    · have hsum : ((i + 1 : ℕ) + (j + 1 : ℕ)) • P = 0 := by
        rw [add_nsmul, hopposite, neg_add_cancel]
      exact absurd hsum (hne _ (by omega) (by omega))
  have hcard := Fintype.card_le_of_injective _ hinjective
  rwa [Fintype.card_fin] at hcard

end Counting

/-! ### Soundness -/

section Soundness

variable {q r : ℕ} {c : EllipticCertificate}

theorem regular_of_units (hpos : 0 < N) (hmodulus : (N : K) = 0) (hunits : (units N a c : K) ≠ 0)
    (hα : α ^ 2 = a) : Regular α N a c.abscissa ∧
      (c.abscissa ^ 2 + a * c.abscissa + a : K) ≠ 0 ∧ (denominator N a c.abscissa c.cofactor : K) ≠ 0 := by
  simp only [units, Nat.cast_mul, cast_difference hpos hmodulus, Nat.cast_add, Nat.cast_pow,
    Nat.cast_ofNat, mul_ne_zero_iff, sub_ne_zero, ← sq] at hunits
  obtain ⟨⟨⟨⟨⟨htwo, ha⟩, hfour⟩, hu⟩, hcurve⟩, hz⟩ := hunits
  exact ⟨⟨hpos, hmodulus, htwo, hα, ha, hfour, hu⟩, hcurve, hz⟩

/-- The abscissa is that of a point if there are enough roots. -/
theorem Regular.exists_nonsingular [IsAlgClosed K] {u : ℕ} (g : Regular α N a u)
    (h : (u ^ 2 + a * u + a : K) ≠ 0) : ∃ v : K, (montgomery α).Nonsingular (u / α) v := by
  obtain ⟨v, hv⟩ := IsAlgClosed.exists_pow_nat_eq
    ((u / α) ^ 3 + α * (u / α) ^ 2 + u / α : K) (n := 2) (by decide)
  have hα := g.root_ne_zero
  have hne : v ≠ 0 := by
    rintro rfl
    have hcube : α ^ 3 * ((u / α) ^ 3 + α * (u / α) ^ 2 + u / α) = u * (u ^ 2 + a * u + a) := by
      rw [← g.root]
      field_simp
    rw [← hv, zero_pow (by decide), mul_zero] at hcube
    exact mul_ne_zero g.abscissa h hcube.symm
  exact ⟨v, nonsingular_of_ne_zero g.two hne (equation_iff.mpr hv)⟩

/-- Modulo each prime factor there are half as many residues as multiples of the point. -/
theorem half_le [IsAlgClosed K] [DecidableEq K] [Fact r.Prime] [CharP K r] [Algebra (ZMod r) K]
    (hq : q.Prime) (hpos : 0 < N) (hmodulus : (N : K) = 0) (hunits : (units N a c : K) ≠ 0)
    (hzero : (denominator N a c.abscissa (c.cofactor * q) : K) = 0) : (q - 1) / 2 ≤ r := by
  obtain ⟨α, hα⟩ := IsAlgClosed.exists_pow_nat_eq (a : K) (n := 2) (by decide)
  obtain ⟨g, hcurve, hz⟩ := regular_of_units hpos hmodulus hunits hα
  obtain ⟨v, hD⟩ := g.exists_nonsingular hcurve
  let P : (montgomery α).Point := .some _ _ hD
  have hP : c.cofactor • P ≠ 0 := by
    obtain ⟨y, hy⟩ := g.denominator hD c.cofactor
    intro h
    rw [At, h, isAt_zero] at hy
    exact mul_ne_zero g.root_ne_zero hz hy.2
  have hqP : q • c.cofactor • P = 0 := by
    obtain ⟨y, hy⟩ := g.denominator hD (c.cofactor * q)
    rw [At, hzero, mul_zero] at hy
    rw [← mul_nsmul]
    cases h : (c.cofactor * q) • P with
    | zero => rfl
    | some x y hxy =>
      rw [h, isAt_some] at hy
      exact absurd rfl hy.1
  -- the ladder stays among the residues, also where the points do not
  have hcoordinate (i : ℕ) : ∃ s : ZMod r,
      algebraMap (ZMod r) K s = α * coordinate (i • c.cofactor • P) := by
    obtain ⟨y, hy⟩ := g.denominator hD (c.cofactor * i)
    refine ⟨y / denominator N a c.abscissa (c.cofactor * i), ?_⟩
    rw [← mul_nsmul, hy.coordinate_eq g.root_ne_zero, map_div₀, map_natCast, map_natCast]
  choose f hf using hcoordinate
  have hcard := half_le_card hq hP hqP f fun i j hij =>
    mul_left_cancel₀ g.root_ne_zero (by rw [← hf, ← hf, hij])
  rwa [ZMod.card] at hcard

theorem half_le_of_dvd (hq : q.Prime) (hr : r.Prime) (hdvd : r ∣ N) (hpos : 0 < N)
    (hunits : Nat.gcd (units N a c) N = 1) (hzero : denominator N a c.abscissa (c.cofactor * q) = 0) :
    (q - 1) / 2 ≤ r := by
  classical
  have : Fact r.Prime := ⟨hr⟩
  have hvanish (n : ℕ) : (n : AlgebraicClosure (ZMod r)) = 0 ↔ r ∣ n := CharP.cast_eq_zero_iff _ r n
  apply half_le (K := AlgebraicClosure (ZMod r)) hq hpos ((hvanish N).mpr hdvd)
  · rw [ne_eq, hvanish]
    intro h
    exact hr.one_lt.ne' (Nat.dvd_one.mp (hunits ▸ Nat.dvd_gcd h hdvd))
  · rw [hzero, Nat.cast_zero]

theorem prime_of_check (hq : q.Prime) (h : c.check q = true) : (c.number q).Prime := by
  simp only [check, force_eq, Bool.and_eq_true, decide_eq_true_eq, beq_iff_eq] at h
  obtain ⟨⟨⟨hone, hlarge⟩, hunits⟩, hzero⟩ := h
  have hpos := Nat.zero_lt_of_lt hone
  by_contra hcomposite
  have hsquare := Nat.minFac_sq_le_self hpos hcomposite
  have hhalf := half_le_of_dvd hq (Nat.minFac_prime hone.ne') (Nat.minFac_dvd _) hpos hunits hzero
  -- an even predecessor loses nothing when it is halved
  have hodd : q % 2 = 1 := by
    refine hq.eq_two_or_odd.resolve_left ?_
    rintro rfl
    omega
  have hle : q - 1 ≤ 2 * (c.number q).minFac := by omega
  have hle' := Nat.pow_le_pow_left hle 2
  rw [mul_pow] at hle'
  omega

theorem prime_of_checkAll (cs : List EllipticCertificate) (hq : q.Prime)
    (h : checkAll q cs = true) : (arrival q cs).Prime := by
  induction cs generalizing q with
  | nil => exact hq
  | cons c cs ih =>
    rw [checkAll, force_eq, Bool.and_eq_true] at h
    exact ih (prime_of_check hq h.1) h.2

end Soundness

end EllipticCertificate

end DeniableHandshake
