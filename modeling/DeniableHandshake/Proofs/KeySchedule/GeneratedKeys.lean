import DeniableHandshake.Proofs.Curve448.BasePoint
import DeniableHandshake.Proofs.KeySchedule.AcceptedKeys
import DeniableHandshake.Proofs.Modp3072.Membership

/-!
# When generated keys can be used

Key generation takes every draw, and few draws give keys that cannot be used. An all-zero private half
is the mark of a pair that is not set, so a pair that was drawn as zero counts as not set, and the public
value of a zero exponent is refused. A scalar that is clamped to four times the order of the base point
has no public point.
-/
namespace DeniableHandshake
open Session

variable {σ : Type} {d : Derivation σ} {m : KeyManager} {s : σ}

namespace Curve448.Keypair

variable {k : Keypair}

/-- The curve exchange leaves it to its caller to look for the key. -/
theorem shared_ne_missingKey {their : Point} {name : KeyName} :
    k.shared their ≠ .error (.missingKey name) := by
  unfold shared
  split
  · nofun
  · split
    · nofun
    · nofun

end Curve448.Keypair

namespace Modp3072.Keypair

variable {k : Keypair}

theorem isEmpty_of_missingKey {their : Value} {name : KeyName}
    (h : k.shared their = .error (.missingKey name)) :
    name = .ourGroupKey ∧ k.isEmpty = true := by
  unfold shared at h
  split at h
  · rename_i hempty
    cases h
    exact ⟨rfl, hempty⟩
  · split at h
    · cases h
    · cases h

end Modp3072.Keypair

namespace KeyManager

/-- The key material of this name is not set. -/
def lacks (m : KeyManager) : KeyName → Bool
  | .ourCurveKey => m.ourCurve.isEmpty
  | .theirCurvePoint => m.theirPoint.isZero
  | .ourGroupKey => m.ourGroup.isEmpty
  | .theirGroupValue => m.theirValue.isZero

theorem lacks_of_exchanged {name : KeyName} (h : m.exchanged = .error (.missingKey name)) :
    m.lacks name = true := by
  rw [exchanged_eq_ite] at h
  split at h
  · rename_i hown
    cases h
    exact hown
  split at h
  · rename_i hpoint
    cases h
    exact hpoint
  split at h
  · rename_i hvalue
    cases h
    exact hvalue
  cases hcurve : m.ourCurve.shared m.theirPoint with
  | error e =>
    rw [hcurve] at h
    cases h
    exact absurd hcurve Curve448.Keypair.shared_ne_missingKey
  | ok curve =>
    cases hgroup : m.ourGroup.shared m.theirValue with
    | error e =>
      rw [hcurve, hgroup] at h
      cases h
      obtain ⟨rfl, hempty⟩ := Modp3072.Keypair.isEmpty_of_missingKey hgroup
      exact hempty
    | ok group =>
      rw [hcurve, hgroup] at h
      cases h

/-- Key material is reported as missing if it is not set, or by the derivation. -/
theorem lacks_or_refuses {name : KeyName}
    (h : (step d .deriveSharedSecret (m, s)).1 = .error (.missingKey name)) :
    m.lacks name = true ∨ d.RefusesAgreement (.missingKey name) :=
  (error_of_step_deriveSharedSecret h).imp_left lacks_of_exchanged

theorem step_deriveSharedSecret_of_isEmpty (d : Derivation σ) (h : m.ourCurve.isEmpty = true)
    (s : σ) : (step d .deriveSharedSecret (m, s)).1 = .error (.missingKey .ourCurveKey) := by
  apply step_deriveSharedSecret_of_error
  rw [exchanged, h]
  rfl

/-- Key generation that succeeds has drawn both private halves and computed their public halves. -/
theorem drawn_of_step_generateKeys {entropy : Entropy} {a : Answer}
    (h : (step d (.generateKeys entropy) (m, s)).1 = .ok a) :
    ∃ scalar rest exponent rest', entropy.draw Curve448.scalarSize = .ok (scalar, rest) ∧
      rest.draw Modp3072.exponentSize = .ok (exponent, rest') ∧
      (step d (.generateKeys entropy) (m, s)).2.1.ownPairs =
        (⟨scalar, ⟨Curve448.x448 scalar .base⟩⟩, .ofExponent exponent) := by
  have hbase := Curve448.Point.isRefused_of_isValid Curve448.Point.isValid_base
  rw [step_generateKeys] at h ⊢
  unfold generated Curve448.Keypair.generate Modp3072.Keypair.generate at h ⊢
  cases hcurve : entropy.draw Curve448.scalarSize with
  | error e =>
    rw [hcurve] at h
    cases h
  | ok p =>
    obtain ⟨scalar, rest⟩ := p
    rw [hcurve] at h
    simp only [bind, Except.bind, Curve448.exchange_eq, hbase] at h ⊢
    cases hgroup : rest.draw Modp3072.exponentSize with
    | error e =>
      simp [hgroup] at h
    | ok q =>
      obtain ⟨exponent, rest'⟩ := q
      exact ⟨scalar, rest, exponent, rest', rfl, hgroup, by simp [hgroup, ownPairs, pure, Except.pure]⟩

/-- Drawn keys are reported as missing only for a zero draw, unless the derivation does it, and a zero
scalar is always reported. -/
structure MissesZeroDraws (d : Derivation σ) (scalar : Block Curve448.scalarSize)
    (exponent : Block Modp3072.exponentSize) (outcome : Outcome) : Prop where
  zero_scalar : scalar = .zero _ → outcome = .error (.missingKey .ourCurveKey)
  curve : outcome = .error (.missingKey .ourCurveKey) →
    scalar = .zero _ ∨ d.RefusesAgreement (.missingKey .ourCurveKey)
  group : outcome = .error (.missingKey .ourGroupKey) →
    exponent = .zero _ ∨ d.RefusesAgreement (.missingKey .ourGroupKey)

theorem missesZeroDraws_of_ownPairs (d : Derivation σ) {scalar : Block Curve448.scalarSize}
    {point : Curve448.Point} {exponent : Block Modp3072.exponentSize}
    (hpairs : m.ownPairs = (⟨scalar, point⟩, .ofExponent exponent)) (s : σ) :
    MissesZeroDraws d scalar exponent (step d .deriveSharedSecret (m, s)).1 := by
  obtain ⟨hcurve, hgroup⟩ : m.ourCurve = ⟨scalar, point⟩ ∧ m.ourGroup = .ofExponent exponent :=
    Prod.mk.inj hpairs
  have hlacksCurve : m.lacks .ourCurveKey = true ↔ scalar = .zero _ := by
    rw [lacks, hcurve]
    exact Block.isZero_iff
  have hlacksGroup : m.lacks .ourGroupKey = true ↔ exponent = .zero _ := by
    rw [lacks, hgroup]
    exact Block.isZero_iff
  refine ⟨?_, ?_, ?_⟩
  · intro hzero
    exact step_deriveSharedSecret_of_isEmpty d (hlacksCurve.mpr hzero) s
  · intro hmissing
    exact (lacks_or_refuses hmissing).imp_left hlacksCurve.mp
  · intro hmissing
    exact (lacks_or_refuses hmissing).imp_left hlacksGroup.mp

/-- Key generation that succeeds gives keys that are set and that every gate and every agreement takes,
unless a draw is zero or the clamped scalar is four times the order of the base point. The generator's
power is one for a zero draw only. -/
theorem generated_keys_usable_iff (d : Derivation σ) {entropy : Entropy} {a : Answer}
    (h : (step d (.generateKeys entropy) (m, s)).1 = .ok a) :
    let after := (step d (.generateKeys entropy) (m, s)).2.1
    ∃ scalar rest exponent rest',
      entropy.draw Curve448.scalarSize = .ok (scalar, rest) ∧
      rest.draw Modp3072.exponentSize = .ok (exponent, rest') ∧
      let power := Modp3072.power Modp3072.generator (ofBigEndian exponent.toList)
      (after.ourCurve.isEmpty = true ↔ scalar = .zero _) ∧
      (after.ourGroup.isEmpty = true ↔ exponent = .zero _) ∧
      (after.ourCurve.point.isValid = true ↔
        Curve448.multiplier scalar ≠ 4 * Curve448.BasePoint.order) ∧
      (after.ourGroup.value.isValid = true ↔ power ≠ 1) ∧
      (power = 1 ↔ exponent = .zero _) ∧
      (∀ profile now,
        let failures := (Gate.check after.ourCurve.point after.ourGroup.value profile now).failures
        (.invalidPoint ∈ failures ↔ Curve448.multiplier scalar = 4 * Curve448.BasePoint.order) ∧
        (.invalidGroupValue ∈ failures ↔ power = 1)) ∧
      ∀ m' s', m'.ownPairs = after.ownPairs →
        MissesZeroDraws d scalar exponent (step d .deriveSharedSecret (m', s')).1 := by
  intro after
  obtain ⟨scalar, rest, exponent, rest', hscalar, hexponent, hpairs⟩ := drawn_of_step_generateKeys h
  obtain ⟨hcurve, hgroup⟩ : after.ourCurve = ⟨scalar, ⟨Curve448.x448 scalar .base⟩⟩ ∧
      after.ourGroup = .ofExponent exponent := Prod.mk.inj hpairs
  refine ⟨scalar, rest, exponent, rest', hscalar, hexponent, ?_⟩
  rw [hcurve, hgroup]
  refine ⟨Block.isZero_iff, Block.isZero_iff, Curve448.isValid_x448_base_iff,
    Modp3072.Keypair.isValid_ofExponent_iff, Modp3072.Keypair.power_exponent_eq_one_iff, ?_, ?_⟩
  · intro profile now failures
    constructor
    · rw [Gate.invalidPoint_mem_failures, ← Bool.not_eq_true, Curve448.isValid_x448_base_iff, not_not]
    · rw [Gate.invalidGroupValue_mem_failures, ← Bool.not_eq_true,
        Modp3072.Keypair.isValid_ofExponent_iff, not_not]
  · intro m' s' hsame
    exact missesZeroDraws_of_ownPairs d (hsame.trans hpairs) s'

/-- The draws are zero: the pairs count as not set, the group value is refused by every gate, and the
agreement misses the curve key that was generated. -/
theorem generated_keys_usable_iff_zero :
    let d : Derivation Unit := .shake
    let entropy : Entropy := [.ok (List.replicate 56 0), .ok (List.replicate 80 0)]
    let after := (step d (.generateKeys entropy) (new, ())).2.1
    (step d (.generateKeys entropy) (new, ())).1 = .ok .done ∧
      after.ourCurve.isEmpty = true ∧ after.ourGroup.isEmpty = true ∧
      after.ourGroup.value.isValid = false ∧
      (step d .deriveSharedSecret (after, ())).1 = .error (.missingKey .ourCurveKey) := by
  intro d entropy after
  have hok : (step d (.generateKeys entropy) (new, ())).1 = .ok .done := by decide +kernel
  obtain ⟨scalar, rest, exponent, rest', hscalar, hexponent, hcurve, hgroup, -, hvalue, hone, -,
    hmissing⟩ := generated_keys_usable_iff d hok
  cases hscalar
  cases hexponent
  have hdraws : Block.fit 56 (List.replicate 56 0) = .zero 56 ∧
      Block.fit 80 (List.replicate 80 0) = .zero 80 := by decide +kernel
  refine ⟨hok, hcurve.mpr hdraws.1, hgroup.mpr hdraws.2, ?_, (hmissing after () rfl).zero_scalar hdraws.1⟩
  rw [← Bool.not_eq_true, hvalue, not_not]
  exact hone.mpr hdraws.2

end KeyManager

end DeniableHandshake
