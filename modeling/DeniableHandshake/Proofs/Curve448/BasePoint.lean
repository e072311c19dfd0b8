import DeniableHandshake.Proofs.Curve448.Membership

/-!
# The order of the base point

The base point generates a subgroup of prime order. A clamped scalar is four times a number that is
less than twice this order, so it takes the base point to infinity only if it is exactly four times the
order. Every other public point is valid, because a point of odd order is none of those that are refused.
-/
namespace DeniableHandshake.Curve448
open Residue Montgomery

namespace BasePoint

def order : Nat :=
  (1 <<< 446) - 13818066809895115352007386748515426880336692474882178609894547503885

def smallPrimes : List Nat :=
  [2, 3, 5, 7, 11, 13, 17, 19, 23, 61, 79, 97, 113, 179, 311, 337, 991, 1609, 1933, 2239, 6577, 34483,
    41389, 51473, 64817, 227393, 766223, 3009341, 4847597, 7156907, 9801157, 15643211, 35796097]

def certificates : List Certificate := [
  ⟨342682509629, 2, [2, 2, 17, 6577, 766223]⟩,
  ⟨671065561, 7, [2, 2, 2, 3, 3, 3, 3, 5, 11, 19, 991]⟩,
  ⟨8464734851, 2, [2, 5, 5, 11, 13, 23, 51473]⟩,
  ⟨6730519843040614479184435237013, 2, [2, 2, 41389, 7156907, 671065561, 8464734851]⟩,
  ⟨47840521, 17, [2, 2, 2, 3, 5, 7, 13, 13, 337]⟩,
  ⟨765448337, 3, [2, 2, 2, 2, 47840521]⟩,
  ⟨2746144996771313789, 2, [2, 2, 7, 113, 1609, 34483, 15643211]⟩,
  ⟨929098197455246849020086750707, 2, [2, 13, 17, 765448337, 2746144996771313789]⟩,
  ⟨3591893631361984318311655378233263, 5, [2, 1933, 929098197455246849020086750707]⟩,
  ⟨95024118539459, 2, [2, 4847597, 9801157]⟩,
  ⟨760192948315673, 3, [2, 2, 2, 95024118539459]⟩,
  ⟨163131120638915058577002756917, 2, [2, 2, 61, 79, 311, 35796097, 760192948315673]⟩,
  ⟨392279121964710096549298451519713063, 3, [2, 3, 179, 2239, 163131120638915058577002756917]⟩,
  ⟨547972593843380542316719287015009101629889568888367769396279985548530313239, 3,
    [2, 3, 64817, 3591893631361984318311655378233263, 392279121964710096549298451519713063]⟩,
  ⟨order, 2,
    [2, 3, 19, 19, 97, 227393, 3009341, 342682509629, 6730519843040614479184435237013,
      547972593843380542316719287015009101629889568888367769396279985548530313239]⟩]

theorem isPrime_of_mem_smallPrimes : ∀ q ∈ smallPrimes, q.Prime := by
  simp only [smallPrimes, List.forall_mem_cons]
  norm_num

theorem prime_order : order.Prime := by
  have hcheck : Certificate.checkAll smallPrimes certificates = true := by decide +kernel
  have hlast := List.getLast_mem (l := certificates) (List.cons_ne_nil _ _)
  exact Certificate.prime_of_checkAll isPrime_of_mem_smallPrimes hcheck _ hlast

instance : Fact order.Prime := ⟨prime_order⟩

theorem odd_order : Odd order := by decide

/-! ### Multiples of the base point -/

theorem basePoint_ne_zero : basePoint ≠ 0 := WeierstrassCurve.Affine.Point.some_ne_zero _

/-- If the ladder ends with the denominator zero, then the multiple is the point at infinity. -/
theorem nsmul_eq_zero_of_climb {k : Nat} (hk : k >>> 448 = 0)
    (hlast : (Ladder.climb 5 k 448 (Ladder.start 5)).z₂ = 0) : k • basePoint = 0 := by
  have hfive : ((5 : ℕ) : ZMod prime) ≠ 0 := cast_ne_zero_of_lt (by decide) (by decide)
  have hstart : (Ladder.start 5).IsAt ((k >>> 448) • basePoint) ((k >>> 448 + 1) • basePoint) := by
    rw [hk]
    exact Ladder.State.IsAt.start nonsingular_base
  have hclimb := (hstart.climb hfive).first
  rw [hlast] at hclimb
  cases hmultiple : k • basePoint with
  | zero => rfl
  | some x y hxy =>
    rw [basePoint] at hmultiple
    rw [hmultiple] at hclimb
    exact absurd Nat.cast_zero hclimb.1

theorem order_nsmul : order • basePoint = 0 :=
  nsmul_eq_zero_of_climb (by decide) (by decide +kernel)

theorem addOrderOf_basePoint : addOrderOf basePoint = order :=
  addOrderOf_eq_prime order_nsmul basePoint_ne_zero

end BasePoint

variable {a : Block scalarSize}

/-- A clamped scalar is four times a number of exactly 446 bits. -/
theorem exists_multiplier_eq (a : Block scalarSize) :
    ∃ n, multiplier a = 4 * n ∧ 1 <<< 445 ≤ n ∧ n < 1 <<< 446 := by
  have hpowers : 1 <<< 447 = 4 * 1 <<< 445 ∧ 1 <<< 446 = 2 * 1 <<< 445 := by decide
  have hpos : 0 < 1 <<< 445 := by decide
  rw [multiplier, clamp]
  generalize ofLittleEndian a.toList = k
  obtain ⟨hupper, hlower⟩ := hpowers
  rw [hupper, hlower]
  generalize 1 <<< 445 = w at hpos
  have hmod : k / 4 * 4 % (4 * w) = 4 * (k / 4 % w) := by
    rw [Nat.mul_comm, Nat.mul_mod_mul_left]
  have hlt := Nat.mod_lt (k / 4) hpos
  exact ⟨k / 4 % w + w, by omega, by omega, by omega⟩

theorem multiplier_nsmul_eq_zero_iff :
    multiplier a • basePoint = 0 ↔ multiplier a = 4 * BasePoint.order := by
  obtain ⟨n, hn, hlow, hhigh⟩ := exists_multiplier_eq a
  have hbounds : 0 < 1 <<< 445 ∧ 1 <<< 446 < 2 * BasePoint.order := by decide
  have hcoprime : BasePoint.order.Coprime 4 := (Nat.coprime_two_right.mpr BasePoint.odd_order).pow_right 2
  rw [← addOrderOf_dvd_iff_nsmul_eq_zero, BasePoint.addOrderOf_basePoint, hn,
    hcoprime.dvd_mul_left]
  constructor
  · rintro ⟨c, rfl⟩
    -- the factor is one, since it is neither zero nor two or more
    obtain rfl | rfl | hc : c = 0 ∨ c = 1 ∨ 2 ≤ c := by omega
    · omega
    · rw [Nat.mul_one]
    · have htwice := Nat.mul_le_mul_left BasePoint.order hc
      omega
  · intro hmultiple
    obtain rfl : n = BasePoint.order := by omega
    exact dvd_rfl

/-! ### Public points -/

theorem cast_coordinate_x448_base :
    ((Point.mk (x448 a .base)).coordinate : ZMod prime) = coordinate (multiplier a • basePoint) := by
  have hfive : ((5 : ℕ) : ZMod prime) ≠ 0 := cast_ne_zero_of_lt (by decide) (by decide)
  rw [coordinate_x448_base]
  exact cast_ladder hfive (clamp_shiftRight _) nonsingular_base

/-- The public point of a scalar is valid, unless the clamped scalar is four times the order of the base
point. -/
theorem isValid_x448_base_iff :
    (Point.mk (x448 a .base)).isValid = true ↔ multiplier a ≠ 4 * BasePoint.order := by
  rw [ne_eq, ← multiplier_nsmul_eq_zero_iff]
  have hcast := cast_coordinate_x448_base (a := a)
  have hlt : (Point.mk (x448 a .base)).coordinate < prime := by
    rw [coordinate_x448_base]
    exact ladder_lt _ _
  constructor
  · intro hvalid hzero
    rw [hzero] at hcast
    have hrefused := (Point.isValid_iff_isSquare.mp hvalid).2.1
    exact cast_ne_zero_of_lt hlt (Point.coordinate_ne_zero hrefused) hcast
  · intro hmultiple
    have horder : BasePoint.order • multiplier a • basePoint = 0 := by
      rw [smul_comm, BasePoint.order_nsmul, nsmul_zero]
    rw [Point.isValid_iff_four_nsmul_ne_zero hlt hmultiple hcast.symm]
    exact four_nsmul_ne_zero_of_odd_order BasePoint.odd_order horder hmultiple

/-- Four times the order is a scalar that clamping leaves as it is. -/
theorem exists_isValid_x448_base_eq_false :
    ∃ a : Block scalarSize, (Point.mk (x448 a .base)).isValid = false := by
  refine ⟨.littleEndian scalarSize (4 * BasePoint.order), ?_⟩
  rw [← Bool.not_eq_true, isValid_x448_base_iff, not_not]
  decide +kernel

end DeniableHandshake.Curve448
