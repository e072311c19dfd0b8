import DeniableHandshake.Proofs.Curve448.BasePoint

/-!
# Points of small order

The multiples of a point at zero, one or minus one alternate: of every even multiple one of the two
projective coordinates is zero, and the ladder, whose last step is a division, ends with zero. A clamped
scalar is even, so the exchange gives nothing but zeros for such a point, with whatever scalar and in
whichever encoding it was received.
-/
namespace DeniableHandshake.Curve448
open Residue

namespace Ladder

/-- The odd multiples of the point at `u` are in the class `O`, as long as the product of the coordinates
of the even multiples is zero. -/
structure Alternates (u : ZMod prime) (O : ZMod prime → ZMod prime → Prop) : Prop where
  point : O u 1
  double : ∀ {X Z}, O X Z → (X ^ 2 - Z ^ 2) * (X * Z) = 0
  sum : ∀ {X Z X' Z'}, X * Z = 0 → O X' Z' →
    O (4 * (X' * X - Z' * Z) ^ 2) (4 * u * (X' * Z - X * Z') ^ 2)

/-- At zero the even multiples and the odd ones are no different. -/
theorem alternates_zero : Alternates 0 fun X Z => X * Z = 0 where
  point := zero_mul 1
  double h := by rw [h, mul_zero]
  sum _ _ := by ring

theorem alternates_of_sq_eq_one {u : ZMod prime} (hu : u ^ 2 = 1) :
    Alternates u fun X Z => X = u * Z where
  point := (mul_one u).symm
  double := by
    rintro X Z rfl
    linear_combination u * Z ^ 4 * hu
  sum := by
    rintro X Z X' Z' - rfl
    linear_combination 4 * Z' ^ 2 * (2 * u * X * Z - (1 + u ^ 2) * Z ^ 2) * hu

/-- The projective coordinates of a multiple, odd or even. -/
def IsMultiple (O : ZMod prime → ZMod prime → Prop) : Bool → ZMod prime → ZMod prime → Prop
  | true, X, Z => O X Z
  | false, X, Z => X * Z = 0

/-- The first point is a multiple of the given parity and the second one of the other, with coordinates
that a step can subtract. -/
structure State.Alternating (s : State) (O : ZMod prime → ZMod prime → Prop) (odd : Bool) : Prop where
  first : IsMultiple O odd s.x₂ s.z₂
  second : IsMultiple O (!odd) s.x₃ s.z₃
  z₂_le : s.z₂ ≤ prime
  z₃_le : s.z₃ ≤ prime

variable {u k : Nat} {O : ZMod prime → ZMod prime → Prop}

namespace State.Alternating

variable {s : State} {odd : Bool}

theorem start (hO : Alternates u O) : (start u).Alternating O false where
  first := by simp [Ladder.start, IsMultiple]
  second := by simpa [Ladder.start, IsMultiple] using hO.point
  z₂_le := Nat.zero_le _
  z₃_le := prime_prime.one_le

theorem swap (h : s.Alternating O odd) : (swapIf true s).Alternating O (!odd) where
  first := h.second
  second := by
    rw [Bool.not_not]
    exact h.first
  z₂_le := h.z₃_le
  z₃_le := h.z₂_le

/-- A double is even, and the sum of neighbouring multiples is odd. -/
theorem doubleAndAdd (hO : Alternates u O) (h : s.Alternating O odd) :
    (doubleAndAdd u s).Alternating O false := by
  obtain ⟨hx₂, hz₂, hx₃, hz₃⟩ := cast_doubleAndAdd u h.z₂_le h.z₃_le
  have hfirst := h.first
  have hsecond := h.second
  refine ⟨?_, ?_, (mul_lt _ _).le, (mul_lt _ _).le⟩
  · have hdouble : ((s.x₂ : ZMod prime) ^ 2 - (s.z₂ : ZMod prime) ^ 2) * (s.x₂ * s.z₂) = 0 := by
      cases odd with
      | true => exact hO.double hfirst
      | false =>
        have heven : (s.x₂ : ZMod prime) * s.z₂ = 0 := hfirst
        rw [heven, mul_zero]
    rw [IsMultiple, hx₂, hz₂]
    linear_combination 4 * ((s.x₂ : ZMod prime) ^ 2 - (s.z₂ : ZMod prime) ^ 2) *
      ((s.x₂ : ZMod prime) ^ 2 + coefficient * s.x₂ * s.z₂ + (s.z₂ : ZMod prime) ^ 2) * hdouble
  · rw [Bool.not_false, IsMultiple, hx₃, hz₃]
    cases odd with
    | false => exact hO.sum hfirst hsecond
    | true =>
      -- the roles of the two points are exchanged, which the squares do not show
      have hsum := hO.sum hsecond hfirst
      convert hsum using 1
      · ring
      · ring

theorem step (hO : Alternates u O) (h : s.Alternating O odd) (bit : Bool) :
    (step u bit s).Alternating O bit := by
  cases bit with
  | false => exact h.doubleAndAdd hO
  | true => exact (h.swap.doubleAndAdd hO).swap

/-- The parity at the end is that of the whole scalar. -/
theorem climb (hO : Alternates u O) (n : Nat) (h : s.Alternating O odd) :
    (climb u k (n + 1) s).Alternating O (k.testBit 0) := by
  induction n generalizing s odd with
  | zero => exact h.step hO (k.testBit 0)
  | succ n ih => exact ih (h.step hO (k.testBit (n + 1)))

end State.Alternating

theorem Alternates.ladder_eq_zero (hO : Alternates u O) (hk : k.testBit 0 = false) : ladder k u = 0 := by
  have hlast := ((State.Alternating.start hO).climb (k := k) hO 447).first
  rw [hk] at hlast
  apply cast_inj_of_lt (ladder_lt k u) prime_prime.pos
  rw [ladder, cast_mul, cast_modPow_sub_two (by decide), Nat.cast_zero, mul_eq_zero, inv_eq_zero]
  exact mul_eq_zero.mp hlast

end Ladder

/-- An even multiple of a point of small order counts as zero. -/
theorem ladder_eq_zero_of_small {k u : Nat} (hk : k.testBit 0 = false)
    (hu : u = 0 ∨ u = 1 ∨ u = prime - 1) : ladder k u = 0 := by
  have hlt : u < prime := by
    have := prime_prime.one_lt
    omega
  cases (small_iff_cast hlt).mp hu with
  | inl hzero =>
    have hO := Ladder.alternates_zero
    rw [← hzero] at hO
    exact hO.ladder_eq_zero hk
  | inr hone => exact (Ladder.alternates_of_sq_eq_one hone).ladder_eq_zero hk

theorem testBit_multiplier (a : Block scalarSize) : (multiplier a).testBit 0 = false := by
  obtain ⟨n, hn, -, -⟩ := exists_multiplier_eq a
  rw [hn, Nat.testBit_zero, decide_eq_false_iff_not]
  omega

namespace Point

variable {p : Point}

/-- In the field, the coordinate is zero, one or minus one. -/
def HasSmallOrder (p : Point) : Prop :=
  p.coordinate % prime = 0 ∨ p.coordinate % prime = 1 ∨ p.coordinate % prime = prime - 1

theorem coordinate_lt (p : Point) : p.coordinate < prime + (1 <<< 224 + 1) := by
  have hlt := ofLittleEndian_lt p.encoding.toList
  have hwidth : 256 ^ pointSize = prime + (1 <<< 224 + 1) := by decide
  rwa [p.encoding.length_toList, hwidth] at hlt

/-- Zero and one have an encoding that is not reduced. -/
theorem hasSmallOrder_iff : p.HasSmallOrder ↔
    p.isRefused = true ∨ p.coordinate = prime ∨ p.coordinate = prime + 1 := by
  have hlt := p.coordinate_lt
  have hroom : 1 <<< 224 + 1 < prime - 1 := by decide
  rw [HasSmallOrder, isRefused_iff]
  by_cases hreduced : p.coordinate < prime
  · rw [Nat.mod_eq_of_lt hreduced]
    omega
  · rw [Nat.mod_eq_sub_mod (Nat.not_lt.mp hreduced), Nat.mod_eq_of_lt (by omega)]
    omega

theorem HasSmallOrder.x448_eq_zero (h : p.HasSmallOrder) (a : Block scalarSize) :
    x448 a p = .zero pointSize := by
  have hladder : ladder (multiplier a) (p.coordinate % prime) = 0 :=
    ladder_eq_zero_of_small (testBit_multiplier a) h
  have hzero : Block.littleEndian pointSize 0 = .zero pointSize := by decide
  rw [← hzero, ← hladder]
  rfl

end Point

namespace Keypair

variable {k : Keypair} {p : Point}

theorem shared_of_isRefused (h : p.isRefused = true) : k.shared p = .error .invalidPoint := by
  rw [shared, exchange_eq, if_pos h]

theorem shared_of_hasSmallOrder (h : p.HasSmallOrder) (hrefused : p.isRefused = false) :
    k.shared p = .error .lowOrderSecret := by
  have hzero : (x448 k.scalar p).isZero = true := Block.isZero_iff.mpr (h.x448_eq_zero k.scalar)
  rw [shared, exchange_eq, hrefused, if_neg Bool.false_ne_true]
  simp only [hzero, if_true]

/-- A point of small order never gives a shared secret: its three reduced encodings are refused, and with
the two others the exchange ends with zero. -/
theorem shared_small_order (k : Keypair) (p : Point) :
    (p.HasSmallOrder ↔ p.coordinate ∈ [0, 1, prime - 1, prime, prime + 1]) ∧
    (p.coordinate ∈ [0, 1, prime - 1] → k.shared p = .error .invalidPoint) ∧
    (p.coordinate ∈ [prime, prime + 1] → k.shared p = .error .lowOrderSecret) ∧
    (p.HasSmallOrder → x448 k.scalar p = .zero pointSize) ∧
    ∀ s, k.shared p = .ok s → ¬ p.HasSmallOrder ∧ s ≠ .zero pointSize := by
  have hrefused : p.isRefused = true ↔ p.coordinate ∈ [0, 1, prime - 1] := by
    simp [Point.isRefused_iff]
  have hunreduced : p.coordinate ∈ [prime, prime + 1] → p.isRefused = false := by
    rw [← Bool.not_eq_true, Point.isRefused_iff]
    have := prime_prime.one_lt
    simp only [List.mem_cons, List.not_mem_nil, or_false]
    omega
  refine ⟨?_, ?_, ?_, fun h => h.x448_eq_zero k.scalar, ?_⟩
  · rw [Point.hasSmallOrder_iff, Point.isRefused_iff]
    simp only [List.mem_cons, List.not_mem_nil, or_false, or_assoc]
  · rw [← hrefused]
    exact shared_of_isRefused
  · intro h
    have hsmall : p.HasSmallOrder := Point.hasSmallOrder_iff.mpr (.inr (by simpa using h))
    exact shared_of_hasSmallOrder hsmall (hunreduced h)
  · intro s hs
    obtain ⟨-, hnonzero, rfl⟩ := shared_eq_ok_iff.mp hs
    have hne : x448 k.scalar p ≠ .zero pointSize := by
      rw [ne_eq, ← Block.isZero_iff, hnonzero]
      exact Bool.false_ne_true
    exact ⟨fun h => hne (h.x448_eq_zero k.scalar), hne⟩

/-- The encoding of one that is not reduced, minus one, and the base point, with one private scalar. -/
theorem shared_small_order_samples :
    let k : Keypair := ⟨.littleEndian scalarSize 0xA5C3, .zero⟩
    let one : Point := .ofCoordinate (prime + 1)
    let minusOne : Point := .ofCoordinate (prime - 1)
    one.coordinate = prime + 1 ∧ one.HasSmallOrder ∧ k.shared one = .error .lowOrderSecret ∧
      minusOne.coordinate = prime - 1 ∧ k.shared minusOne = .error .invalidPoint ∧
      ∃ s, k.shared .base = .ok s ∧ ¬ Point.base.HasSmallOrder ∧ s ≠ .zero pointSize := by
  intro k one minusOne
  have hone : one.coordinate = prime + 1 := by decide +kernel
  have hminusOne : minusOne.coordinate = prime - 1 := by decide +kernel
  obtain ⟨hsmall, -, hlow, -, -⟩ := shared_small_order k one
  obtain ⟨-, hinvalid, -, -, -⟩ := shared_small_order k minusOne
  obtain ⟨-, -, -, -, hbase⟩ := shared_small_order k .base
  have hmem : one.coordinate ∈ [prime, prime + 1] := by
    rw [hone]
    exact List.mem_cons_of_mem _ List.mem_cons_self
  have hshared : k.shared .base = .ok (x448 k.scalar .base) := by decide +kernel
  refine ⟨hone, hsmall.mpr ?_, hlow hmem, hminusOne, hinvalid ?_, _, hshared, hbase _ hshared⟩
  · rw [hone]
    simp
  · rw [hminusOne]
    simp

end Keypair

end DeniableHandshake.Curve448
