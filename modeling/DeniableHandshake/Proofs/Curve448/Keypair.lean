import DeniableHandshake.Curve448.Keypair
import DeniableHandshake.Proofs.Bytes.Endian
import DeniableHandshake.Proofs.Curve448.Ladder

/-!
# Agreement of curve key pairs

Multiples of multiples of the base point commute, so two generated key pairs that take each other's
public point give the same shared bytes.
-/
namespace DeniableHandshake.Curve448

theorem shiftRight_of_mod_add (w n : Nat) : (n % (1 <<< w) + (1 <<< w)) >>> (w + 1) = 0 := by
  apply Nat.shiftRight_eq_zero
  rw [Nat.one_shiftLeft, Nat.pow_succ]
  have hmod : n % 2 ^ w < 2 ^ w := Nat.mod_lt n (Nat.two_pow_pos w)
  omega

theorem clamp_shiftRight (k : Nat) : clamp k >>> 448 = 0 := shiftRight_of_mod_add 447 _

namespace Point

theorem ofCoordinate_coordinate (p : Point) : ofCoordinate p.coordinate = p := by
  have hlist := toLittleEndian_ofLittleEndian p.encoding.toList
  rw [p.encoding.length_toList] at hlist
  exact congrArg Point.mk (Block.ext hlist)

theorem coordinate_ofCoordinate {u : Nat} (h : u < prime) : (ofCoordinate u).coordinate = u := by
  have hwidth : prime < 256 ^ pointSize := by decide
  exact (ofLittleEndian_toLittleEndian pointSize u).trans (Nat.mod_eq_of_lt (h.trans hwidth))

theorem eq_ofCoordinate_iff {p : Point} {u : Nat} (hu : u < prime) :
    p = ofCoordinate u ↔ p.coordinate = u := by
  constructor
  · rintro rfl
    exact coordinate_ofCoordinate hu
  · rintro rfl
    exact p.ofCoordinate_coordinate.symm

/-- The exchange refuses three encodings, all of them reduced. -/
theorem isRefused_iff {p : Point} :
    p.isRefused = true ↔ p.coordinate = 0 ∨ p.coordinate = 1 ∨ p.coordinate = prime - 1 := by
  simp only [isRefused, Bool.or_eq_true, beq_iff_eq, or_assoc]
  rw [eq_ofCoordinate_iff (by decide), eq_ofCoordinate_iff (by decide),
    eq_ofCoordinate_iff (by decide)]

theorem coordinate_ne_zero {p : Point} (h : p.isRefused = false) : p.coordinate ≠ 0 := by
  intro hzero
  rw [isRefused_iff.mpr (.inl hzero)] at h
  cases h

end Point

/-- X448 on every point, also on those that the exchange refuses. -/
def x448 (scalar : Block scalarSize) (p : Point) : Block pointSize :=
  .littleEndian pointSize (ladder (clamp (ofLittleEndian scalar.toList)) (p.coordinate % prime))

theorem exchange_eq (scalar : Block scalarSize) (p : Point) :
    exchange scalar p = if p.isRefused then none else some (x448 scalar p) := rfl

/-- The scalar of the multiple that a private scalar stands for. -/
def multiplier (scalar : Block scalarSize) : Nat := clamp (ofLittleEndian scalar.toList)

variable {a b : Block scalarSize}

theorem coordinate_x448 (p : Point) :
    (Point.mk (x448 a p)).coordinate = ladder (multiplier a) (p.coordinate % prime) :=
  Point.coordinate_ofCoordinate (ladder_lt _ _)

theorem coordinate_x448_base : (Point.mk (x448 a .base)).coordinate = ladder (multiplier a) 5 :=
  coordinate_x448 .base

/-- A public point that is not refused is multiplied on. -/
theorem x448_x448 (hb : (Point.mk (x448 b .base)).isRefused = false) :
    x448 a ⟨x448 b .base⟩ = .littleEndian pointSize (ladder (multiplier a) (ladder (multiplier b) 5)) ∧
      (ladder (multiplier a) (ladder (multiplier b) 5) : ZMod prime) =
        Montgomery.coordinate (multiplier a • multiplier b • basePoint) := by
  have hne := Point.coordinate_ne_zero hb
  rw [coordinate_x448_base] at hne
  refine ⟨?_, cast_ladder_ladder (clamp_shiftRight _) (clamp_shiftRight _) hne⟩
  rw [x448, coordinate_x448_base, Nat.mod_eq_of_lt (ladder_lt _ _)]
  rfl

theorem x448_comm (ha : (Point.mk (x448 a .base)).isRefused = false)
    (hb : (Point.mk (x448 b .base)).isRefused = false) :
    x448 a ⟨x448 b .base⟩ = x448 b ⟨x448 a .base⟩ := by
  obtain ⟨hab, hmultiple⟩ := x448_x448 (a := a) hb
  obtain ⟨hba, hmultiple'⟩ := x448_x448 (a := b) ha
  rw [smul_comm, ← hmultiple'] at hmultiple
  rw [hab, hba, Residue.cast_inj_of_lt (ladder_lt _ _) (ladder_lt _ _) hmultiple]

namespace Keypair

variable {k k' : Keypair} {their : Point} {s s' : Block pointSize}

/-- The key pair is the one that belongs to its scalar. -/
def IsGenerated (k : Keypair) : Prop := k.point = ⟨x448 k.scalar .base⟩

theorem isEmpty_empty : empty.isEmpty = true := Block.isZero_iff.mpr rfl

theorem isGenerated_of_generate {entropy rest : Entropy} (h : generate entropy = .ok (k, rest)) :
    k.IsGenerated := by
  unfold generate at h
  cases hdraw : entropy.draw scalarSize with
  | error e =>
    rw [hdraw] at h
    cases h
  | ok p =>
    simp only [hdraw, bind, Except.bind, exchange_eq] at h
    cases hbase : Point.base.isRefused with
    | true =>
      rw [hbase] at h
      cases h
    | false =>
      rw [hbase] at h
      cases h
      rfl

theorem shared_eq_ok_iff : k.shared their = .ok s ↔
    their.isRefused = false ∧ s.isZero = false ∧ s = x448 k.scalar their := by
  unfold shared
  rw [exchange_eq]
  cases hrefused : their.isRefused with
  | true => simp
  | false =>
    cases hzero : (x448 k.scalar their).isZero with
    | true =>
      simp only [Bool.false_eq_true, if_false, hzero, if_true]
      constructor
      · nofun
      · rintro ⟨-, hs, rfl⟩
        rw [hzero] at hs
        cases hs
    | false =>
      simp only [Bool.false_eq_true, if_false, hzero, Except.ok.injEq, true_and]
      constructor
      · rintro rfl
        exact ⟨hzero, rfl⟩
      · rintro ⟨-, rfl⟩
        rfl

theorem shared_comm (hk : k.IsGenerated) (hk' : k'.IsGenerated) (h : k.shared k'.point = .ok s)
    (h' : k'.shared k.point = .ok s') : s = s' := by
  obtain ⟨hrefused, -, rfl⟩ := shared_eq_ok_iff.mp h
  obtain ⟨hrefused', -, rfl⟩ := shared_eq_ok_iff.mp h'
  rw [hk'] at hrefused ⊢
  rw [hk] at hrefused' ⊢
  exact x448_comm hrefused' hrefused

end Keypair

end DeniableHandshake.Curve448
