import DeniableHandshake.Proofs.Curve448.Keypair
import DeniableHandshake.Proofs.KeySchedule.Operations
import DeniableHandshake.Proofs.Modp3072.Keypair

/-!
# The exchange half of a key manager

What the checks and the two exchanges of a manager give depends on its own key pairs and on the
peer's values alone. Key generation writes either both key pairs or nothing, and two managers that hold
the public halves of each other's keys exchange to the same bytes.
-/
namespace DeniableHandshake
open Session

variable {σ : Type} {d : Derivation σ} {f : Query → (n : Nat) → Block n} {m m' : KeyManager}

/-- The results of the curve exchange and of the group exchange. -/
abbrev ExchangedBytes := Block Curve448.pointSize × Block Modp3072.width

namespace ExchangedBytes

def brace (f : Query → (n : Nat) → Block n) (x : ExchangedBytes) : Block braceKeySize :=
  f (Usage.braceKey.query x.2.toList) braceKeySize

def secret (f : Query → (n : Nat) → Block n) (x : ExchangedBytes) : Block sharedSecretSize :=
  f (Usage.sharedSecret.query (x.1.toList ++ (x.brace f).toList)) sharedSecretSize

end ExchangedBytes

namespace KeyManager

/-- The checks of the shared secret and both exchanges, before anything is derived. -/
def exchanged (m : KeyManager) : Except KeyError ExchangedBytes := do
  if m.ourCurve.isEmpty then throw (.missingKey .ourCurveKey)
  if m.theirPoint.isZero then throw (.missingKey .theirCurvePoint)
  if m.theirValue.isZero then throw (.missingKey .theirGroupValue)
  let curve ← m.ourCurve.shared m.theirPoint
  let group ← m.ourGroup.shared m.theirValue
  return (curve, group)

theorem exchanged_eq_ok_iff {x : ExchangedBytes} : m.exchanged = .ok x ↔
    m.ourCurve.isEmpty = false ∧ m.theirPoint.isZero = false ∧ m.theirValue.isZero = false ∧
      m.ourCurve.shared m.theirPoint = .ok x.1 ∧ m.ourGroup.shared m.theirValue = .ok x.2 := by
  unfold exchanged
  cases hown : m.ourCurve.isEmpty with
  | true => simp [throw, throwThe, MonadExceptOf.throw, bind, Except.bind]
  | false =>
    cases hpoint : m.theirPoint.isZero with
    | true => simp [throw, throwThe, MonadExceptOf.throw, bind, Except.bind]
    | false =>
      cases hvalue : m.theirValue.isZero with
      | true => simp [throw, throwThe, MonadExceptOf.throw, bind, Except.bind]
      | false =>
        cases hcurve : m.ourCurve.shared m.theirPoint with
        | error e => simp [bind, Except.bind]
        | ok curve =>
          cases hgroup : m.ourGroup.shared m.theirValue with
          | error e => simp [bind, Except.bind]
          | ok group => simp [bind, Except.bind, pure, Except.pure, Prod.ext_iff]

theorem deriveSharedSecret_eq (d : Derivation σ) : deriveSharedSecret d = (do
    let m ← manager
    let x ← ofExcept m.exchanged
    let brace ← ask d (Usage.braceKey.query x.2.toList) braceKeySize
    let secret ← ask d (Usage.sharedSecret.query (x.1.toList ++ brace.toList)) sharedSecretSize
    update fun m => { m with brace := brace }
    return secret) := by
  unfold deriveSharedSecret
  apply bind_congr
  intro m
  unfold exchanged
  cases m.ourCurve.isEmpty with
  | true => rfl
  | false =>
    cases m.theirPoint.isZero with
    | true => rfl
    | false =>
      cases m.theirValue.isZero with
      | true => rfl
      | false =>
        cases m.ourCurve.shared m.theirPoint with
        | error e => rfl
        | ok curve =>
          cases m.ourGroup.shared m.theirValue with
          | error e => rfl
          | ok group => rfl

/-! ### The steps of an exchange -/

variable {e : KeyError} {x x' : ExchangedBytes}

theorem step_deriveSharedSecret_of_ok (hd : d.Computes f) (hx : m.exchanged = .ok x) (s : σ) :
    (step d .deriveSharedSecret (m, s)).1 = .ok (.sharedSecret (x.secret f)) ∧
      (step d .deriveSharedSecret (m, s)).2.1 = { m with brace := x.brace f } := by
  have hreturns : Returns (deriveSharedSecret d) m (x.secret f) { m with brace := x.brace f } := by
    rw [deriveSharedSecret_eq]
    apply returns_manager.bind
    rw [hx]
    apply (returns_pure x).bind
    apply (returns_ask hd _ _).bind
    apply (returns_ask hd _ _).bind
    apply (returns_update _).bind
    exact returns_pure _
  have hperform : Returns (perform d .deriveSharedSecret) m (.sharedSecret (x.secret f)) _ :=
    hreturns.map Answer.sharedSecret
  exact step_of_returns hperform s

/-- Checks and exchanges that fail come before the derivation is asked. -/
theorem step_deriveSharedSecret_eq_of_error (d : Derivation σ) (hx : m.exchanged = .error e) (s : σ) :
    step d .deriveSharedSecret (m, s) = (.error e, m, s) := by
  have hmanager : (manager : Session σ KeyManager) (m, s) = .ok m (m, s) := rfl
  have hsession : deriveSharedSecret d (m, s) = .error e (m, s) := by
    rw [deriveSharedSecret_eq]
    apply (bind_of_ok hmanager).trans
    rw [hx]
    rfl
  have hperform : perform d .deriveSharedSecret (m, s) = .error e (m, s) := by
    unfold perform
    rw [map_eq_pure_bind]
    exact bind_of_error hsession
  simp only [step, hperform]

theorem step_deriveSharedSecret_of_error (d : Derivation σ) (hx : m.exchanged = .error e) (s : σ) :
    (step d .deriveSharedSecret (m, s)).1 = .error e :=
  congrArg Prod.fst (step_deriveSharedSecret_eq_of_error d hx s)

/-- A manager that returned a secret has exchanged. -/
theorem exchanged_of_step (hd : d.Computes f) {a : Answer} {s : σ}
    (h : (step d .deriveSharedSecret (m, s)).1 = .ok a) :
    ∃ x, m.exchanged = .ok x ∧ a = .sharedSecret (x.secret f) ∧
      (step d .deriveSharedSecret (m, s)).2.1 = { m with brace := x.brace f } := by
  cases hx : m.exchanged with
  | error e =>
    rw [step_deriveSharedSecret_of_error d hx] at h
    cases h
  | ok x =>
    obtain ⟨hanswer, hmanager⟩ := step_deriveSharedSecret_of_ok hd hx s
    rw [hanswer] at h
    cases h
    exact ⟨x, rfl, rfl, hmanager⟩

/-! ### Key generation -/

/-- The key pairs that a source of randomness gives, the curve key drawn first. -/
def generated (entropy : Entropy) : Except KeyError (Curve448.Keypair × Modp3072.Keypair) := do
  let (curve, rest) ← Curve448.Keypair.generate entropy
  let (group, _) ← Modp3072.Keypair.generate rest
  return (curve, group)

theorem ofExcept_bind {α β : Type} (x : Except KeyError α) (g : α → Except KeyError β) :
    (ofExcept (x >>= g) : Session σ β) = ofExcept x >>= fun a => ofExcept (g a) := by
  cases x with
  | error e => rfl
  | ok a => rfl

theorem generateKeys_eq (entropy : Entropy) : (generateKeys entropy : Session σ Unit) = (do
    let k ← ofExcept (generated entropy)
    update fun m => { m with ourCurve := k.1, ourGroup := k.2 }) := by
  unfold generateKeys generated
  simp only [ofExcept_bind, bind_assoc]
  rfl

theorem step_generateKeys (d : Derivation σ) (entropy : Entropy) (m : KeyManager) (s : σ) :
    step d (.generateKeys entropy) (m, s) = match generated entropy with
      | .ok k => (.ok .done, { m with ourCurve := k.1, ourGroup := k.2 }, s)
      | .error e => (.error e, m, s) := by
  simp only [step, perform, generateKeys_eq]
  cases generated entropy with
  | error e => rfl
  | ok k => rfl

theorem isGenerated_of_generated {entropy : Entropy} {k : Curve448.Keypair × Modp3072.Keypair}
    (h : generated entropy = .ok k) : k.1.IsGenerated ∧ k.2.IsGenerated := by
  obtain ⟨curve, group⟩ := k
  simp only [generated, Modp3072.Keypair.generate, bind, Except.bind] at h
  cases hcurve : Curve448.Keypair.generate entropy with
  | error e =>
    rw [hcurve] at h
    cases h
  | ok p =>
    rw [hcurve] at h
    cases hdraw : p.2.draw Modp3072.exponentSize with
    | error e =>
      simp only [hdraw] at h
      cases h
    | ok q =>
      simp only [hdraw] at h
      cases h
      exact ⟨Curve448.Keypair.isGenerated_of_generate hcurve, rfl⟩

/-! ### Own keys and the peer's values -/

/-- What key generation writes. -/
def ownPairs (m : KeyManager) : Curve448.Keypair × Modp3072.Keypair := (m.ourCurve, m.ourGroup)

/-- What key generation, the peer's values and the shared secret write. -/
def exchangeHalf (m : KeyManager) : (Curve448.Keypair × Modp3072.Keypair) ×
    (Curve448.Point × Modp3072.Value) × Block braceKeySize :=
  (m.ownPairs, (m.theirPoint, m.theirValue), m.brace)

theorem preserves_ownPairs_deriveSharedSecret (d : Derivation σ) :
    Preserves ownPairs (deriveSharedSecret d) :=
  preserves_deriveSharedSecret d fun _ _ => rfl

theorem preserves_exchangeHalf_newRatchet (d : Derivation σ) (secret : Bytes) :
    Preserves exchangeHalf (newRatchet d secret) :=
  preserves_newRatchet d secret fun _ _ => rfl

theorem preserves_exchangeHalf_nextMessageKeys (d : Derivation σ) (chain : Chain) :
    Preserves exchangeHalf (nextMessageKeys d chain) :=
  preserves_nextMessageKeys d chain fun _ _ => rfl

/-- Each key pair belongs to its private half, unless that is not set. -/
structure OwnKeys (m : KeyManager) : Prop where
  curve : m.ourCurve.isEmpty = false → m.ourCurve.IsGenerated
  group : m.ourGroup.isEmpty = false → m.ourGroup.IsGenerated

theorem OwnKeys.new : OwnKeys .new := by
  constructor
  · intro h
    rw [KeyManager.new, Curve448.Keypair.isEmpty_empty] at h
    cases h
  · intro h
    rw [KeyManager.new, Modp3072.Keypair.isEmpty_empty] at h
    cases h

theorem OwnKeys.of_ownPairs_eq (hm : m.OwnKeys) (h : m'.ownPairs = m.ownPairs) : m'.OwnKeys := by
  obtain ⟨hcurve, hgroup⟩ := Prod.mk.inj h
  exact ⟨hcurve ▸ hm.curve, hgroup ▸ hm.group⟩

theorem OwnKeys.generateKeys (hm : m.OwnKeys) (d : Derivation σ) (entropy : Entropy) (s : σ) :
    (step d (.generateKeys entropy) (m, s)).2.1.OwnKeys := by
  rw [step_generateKeys]
  cases hk : generated entropy with
  | error e => exact hm
  | ok k =>
    obtain ⟨hcurve, hgroup⟩ := isGenerated_of_generated hk
    exact ⟨fun _ => hcurve, fun _ => hgroup⟩

/-- The peer's values are the public halves of the keys of another manager. -/
structure Meets (m m' : KeyManager) : Prop where
  point : m.theirPoint = m'.ourCurve.point
  value : m.theirValue = m'.ourGroup.value

theorem exchanged_eq (hown : m.OwnKeys) (hown' : m'.OwnKeys) (hmeets : m.Meets m')
    (hmeets' : m'.Meets m) (hx : m.exchanged = .ok x) (hx' : m'.exchanged = .ok x') : x = x' := by
  obtain ⟨hempty, -, -, hcurve, hgroup⟩ := exchanged_eq_ok_iff.mp hx
  obtain ⟨hempty', -, -, hcurve', hgroup'⟩ := exchanged_eq_ok_iff.mp hx'
  have hset := (Modp3072.Keypair.shared_eq_ok_iff.mp hgroup).1
  have hset' := (Modp3072.Keypair.shared_eq_ok_iff.mp hgroup').1
  rw [hmeets.point] at hcurve
  rw [hmeets'.point] at hcurve'
  rw [hmeets.value] at hgroup
  rw [hmeets'.value] at hgroup'
  apply Prod.ext
  · exact Curve448.Keypair.shared_comm (hown.curve hempty) (hown'.curve hempty') hcurve hcurve'
  · exact Modp3072.Keypair.shared_comm (hown.group hset) (hown'.group hset') hgroup hgroup'

end KeyManager

end DeniableHandshake
