import DeniableHandshake.Proofs.KeySchedule.Accounts
import DeniableHandshake.Proofs.KeySchedule.GeneratedKeys
import DeniableHandshake.Proofs.KeySchedule.Rounds

/-!
# The history of the exchange half

What a run has done to the exchange half of a manager is told by the last draws of private halves, by the
peer's last values, and by what the last agreement exchanged, each since the manager was last cleared. Both
own key pairs belong to the same draws, and the brace key belongs to what was in force when the last
agreement succeeded. Operations that fail leave no trace in the history, and ratchet steps and draws of
message keys none in the exchange half.
-/
namespace DeniableHandshake
open Session

variable {σ : Type} {d : Derivation σ} {f : Query → (n : Nat) → Block n} {m m' : KeyManager} {s : σ}

structure PeerKeys where
  point : Curve448.Point
  value : Modp3072.Value

/-- The private halves of both key pairs. -/
structure OwnDraws where
  scalar : Block Curve448.scalarSize
  exponent : Block Modp3072.exponentSize

namespace OwnDraws

/-- The scalar is drawn first. -/
def drawn? (entropy : Entropy) : Option OwnDraws :=
  match entropy.draw Curve448.scalarSize with
  | .error _ => none
  | .ok (scalar, rest) =>
    match rest.draw Modp3072.exponentSize with
    | .error _ => none
    | .ok (exponent, _) => some ⟨scalar, exponent⟩

variable (k : OwnDraws)

def curve : Curve448.Keypair := ⟨k.scalar, ⟨Curve448.x448 k.scalar .base⟩⟩

def group : Modp3072.Keypair :=
  ⟨k.exponent, .ofNat (Modp3072.generator ^ ofBigEndian k.exponent.toList % Modp3072.prime)⟩

def exchange (peer : PeerKeys) : ExchangedBytes :=
  (Curve448.x448 k.scalar peer.point,
    .bigEndian Modp3072.width
      (peer.value.toNat ^ ofBigEndian k.exponent.toList % Modp3072.prime))

theorem group_eq : k.group = .ofExponent k.exponent := by
  rw [group, Modp3072.Keypair.ofExponent, Modp3072.power, modPow_eq]

end OwnDraws

structure ExchangeHistory where
  own : Option OwnDraws
  peer : Option PeerKeys
  /-- What the last agreement exchanged. -/
  agreed : Option ExchangedBytes

namespace ExchangeHistory

def empty : ExchangeHistory := ⟨none, none, none⟩

def next (h : ExchangeHistory) : Operation → ExchangeHistory
  | .generateKeys entropy => { h with own := OwnDraws.drawn? entropy }
  | .setTheirKeys point value => { h with peer := some ⟨point, value⟩ }
  | .deriveSharedSecret =>
    { h with agreed := h.own.bind fun own => h.peer.map fun peer => own.exchange peer }
  | .newRatchet _ => h
  | .nextMessageKeys _ => h
  | .destroy => empty

/-- The history of operations on a new manager. -/
def of (ops : List Operation) : ExchangeHistory := ops.foldl next empty

/-- The exchange half of the manager is in the state that the history tells. -/
structure Matches (f : Query → (n : Nat) → Block n) (h : ExchangeHistory) (m : KeyManager) :
    Prop where
  curve : m.ourCurve = h.own.elim .empty OwnDraws.curve
  group : m.ourGroup = h.own.elim .empty OwnDraws.group
  point : m.theirPoint = h.peer.elim .zero PeerKeys.point
  value : m.theirValue = h.peer.elim .zero PeerKeys.value
  brace : m.brace = h.agreed.elim (.zero braceKeySize) (ExchangedBytes.brace f)

variable {h : ExchangeHistory}

namespace Matches

theorem new : empty.Matches f .new := ⟨rfl, rfl, rfl, rfl, rfl⟩

theorem of_exchangeHalf_eq (hm : h.Matches f m) (he : m'.exchangeHalf = m.exchangeHalf) :
    h.Matches f m' := by
  simp only [KeyManager.exchangeHalf, KeyManager.ownPairs, Prod.mk.injEq] at he
  obtain ⟨⟨hcurve, hgroup⟩, ⟨hpoint, hvalue⟩, hbrace⟩ := he
  exact ⟨hcurve ▸ hm.curve, hgroup ▸ hm.group, hpoint ▸ hm.point, hvalue ▸ hm.value,
    hbrace ▸ hm.brace⟩

/-- A manager that exchanges has drawn its keys and was given the peer's. -/
theorem exchanged_eq_ok (hm : h.Matches f m) {x : ExchangedBytes} (hx : m.exchanged = .ok x) :
    ∃ own peer, h.own = some own ∧ h.peer = some peer ∧ x = own.exchange peer := by
  obtain ⟨hcurve, hpoint, -, hshared, hshared'⟩ := KeyManager.exchanged_eq_ok_iff.mp hx
  obtain ⟨-, -, hx₁⟩ := Curve448.Keypair.shared_eq_ok_iff.mp hshared
  obtain ⟨-, -, hx₂⟩ := Modp3072.Keypair.shared_eq_ok_iff.mp hshared'
  cases hown : h.own with
  | none =>
    rw [hm.curve, hown, Option.elim_none, Curve448.Keypair.isEmpty_empty] at hcurve
    cases hcurve
  | some own =>
    cases hpeer : h.peer with
    | none =>
      rw [hm.point, hpeer] at hpoint
      cases hpoint
    | some peer =>
      refine ⟨own, peer, rfl, rfl, Prod.ext ?_ ?_⟩
      · rw [hx₁, hm.curve, hm.point, hown, hpeer]
        rfl
      · rw [hx₂, hm.group, hm.value, hown, hpeer, Modp3072.power, modPow_eq]
        rfl

end Matches

end ExchangeHistory

namespace KeyManager
open ExchangeHistory

variable {h : ExchangeHistory} {x : ExchangedBytes}

/-! ### An agreement under a derivation that can fail -/

theorem yields_deriveSharedSecret (hd : d.AgreesWith f) (hx : m.exchanged = .ok x) :
    Yields (deriveSharedSecret d.recorded) m (x.secret f) { m with brace := x.brace f }
      [.of f (Usage.braceKey.query x.2.toList) braceKeySize,
        .of f (Usage.sharedSecret.query (x.1.toList ++ (x.brace f).toList)) sharedSecretSize] := by
  rw [deriveSharedSecret_eq]
  apply yields_manager.bind
  rw [hx]
  apply (yields_pure x).bind
  apply (yields_ask hd _ _).bind
  apply (yields_ask hd _ _).bind
  apply (yields_update _).bind
  exact yields_pure _

theorem step_deriveSharedSecret_of_agrees (hd : d.AgreesWith f) {a : Answer}
    (hok : (step d .deriveSharedSecret (m, s)).1 = .ok a) :
    ∃ x, m.exchanged = .ok x ∧ a = .sharedSecret (x.secret f) ∧
      (step d .deriveSharedSecret (m, s)).2.1 = { m with brace := x.brace f } := by
  cases hx : m.exchanged with
  | error e =>
    rw [step_deriveSharedSecret_of_error d hx] at hok
    cases hok
  | ok x =>
    obtain ⟨new, hrecorded, -⟩ := step_recorded d .deriveSharedSecret m s []
    have hperform : Yields (perform d.recorded .deriveSharedSecret) m (.sharedSecret (x.secret f)) _ _ :=
      (yields_deriveSharedSecret hd hx).map Answer.sharedSecret
    have hok' : (step d.recorded .deriveSharedSecret (m, s, [])).1 = .ok a := by
      rw [hrecorded]
      exact hok
    obtain ⟨hanswer, hmanager, -⟩ := step_of_yields hperform hok'
    rw [hrecorded] at hmanager
    exact ⟨x, rfl, hanswer, hmanager⟩

/-! ### Steps and runs -/

/-- What key generation leaves alone in the exchange half. -/
def notDrawn (m : KeyManager) : Curve448.Point × Modp3072.Value × Block braceKeySize :=
  (m.theirPoint, m.theirValue, m.brace)

theorem exchange_step_generateKeys (hm : h.Matches f m) {entropy : Entropy} {a : Answer}
    (hok : (step d (.generateKeys entropy) (m, s)).1 = .ok a) :
    (h.next (.generateKeys entropy)).Matches f (step d (.generateKeys entropy) (m, s)).2.1 := by
  obtain ⟨scalar, rest, exponent, rest', hscalar, hexponent, hpairs⟩ := drawn_of_step_generateKeys hok
  have hdrawn : OwnDraws.drawn? entropy = some ⟨scalar, exponent⟩ := by
    simp only [OwnDraws.drawn?, hscalar, hexponent]
  have hpreserves : Preserves notDrawn (generateKeys entropy : Session σ Unit) :=
    preserves_generateKeys entropy fun _ _ _ => rfl
  have hkept : Preserves notDrawn (perform d (.generateKeys entropy)) :=
    hpreserves.map fun _ => Answer.done
  have hrest := step_preserves hkept (m, s)
  obtain ⟨hcurve, hgroup⟩ := Prod.mk.inj hpairs
  obtain ⟨hpoint, hvalue, hbrace⟩ := Prod.mk.inj hrest |>.imp_right Prod.mk.inj
  refine ⟨?_, ?_, hpoint.trans hm.point, hvalue.trans hm.value, hbrace.trans hm.brace⟩
  · rw [hcurve, ExchangeHistory.next, hdrawn]
    rfl
  · rw [hgroup, ExchangeHistory.next, hdrawn]
    exact (OwnDraws.group_eq ⟨scalar, exponent⟩).symm

theorem exchange_step (hd : d.AgreesWith f) (hm : h.Matches f m) {op : Operation} {a : Answer}
    (hok : (step d op (m, s)).1 = .ok a) : (h.next op).Matches f (step d op (m, s)).2.1 := by
  cases op with
  | generateKeys entropy => exact exchange_step_generateKeys hm hok
  | setTheirKeys point value => exact ⟨hm.curve, hm.group, rfl, rfl, hm.brace⟩
  | deriveSharedSecret =>
    obtain ⟨x, hx, -, hwritten⟩ := step_deriveSharedSecret_of_agrees hd hok
    obtain ⟨own, peer, hown, hpeer, rfl⟩ := hm.exchanged_eq_ok hx
    rw [hwritten]
    refine ⟨hm.curve, hm.group, hm.point, hm.value, ?_⟩
    rw [ExchangeHistory.next, hown, hpeer]
    rfl
  | newRatchet secret =>
    have hkept := (preserves_exchangeHalf_newRatchet d secret).map fun _ => Answer.done
    exact hm.of_exchangeHalf_eq (step_preserves hkept (m, s))
  | nextMessageKeys c =>
    have hkept := (preserves_exchangeHalf_nextMessageKeys d c).map Answer.messageKeys
    exact hm.of_exchangeHalf_eq (step_preserves hkept (m, s))
  | destroy =>
    rw [step_destroy]
    exact .new

theorem exchange_run (hd : d.AgreesWith f) (ops : List Operation) (s : σ) :
    (ExchangeHistory.of (effective d ops (new, s))).Matches f (run d ops (new, s)).2.1 :=
  run_effective ExchangeHistory.next (Matches f) (fun _ _ _ _ _ hm hok => exchange_step hd hm hok)
    .new ops s

/-- The exchange half of every state that a run reaches, told by the operations that succeeded, and what
each agreement returned and stored. Ratchet steps and draws leave all of it alone, also when they fail. -/
theorem exchange_half_of_run (hd : d.AgreesWith f) (ops : List Operation) (s : σ) :
    let r := run d ops (new, s)
    let h := ExchangeHistory.of (effective d ops (new, s))
    r.2.1.ourCurve = h.own.elim .empty OwnDraws.curve ∧
      r.2.1.ourGroup = h.own.elim .empty OwnDraws.group ∧
      r.2.1.theirPoint = h.peer.elim .zero PeerKeys.point ∧
      r.2.1.theirValue = h.peer.elim .zero PeerKeys.value ∧
      r.2.1.brace = h.agreed.elim (.zero braceKeySize) (ExchangedBytes.brace f) ∧
      (∀ (i : Nat) a, ops[i]? = some .deriveSharedSecret → r.1[i]? = some (.ok a) →
        ∃ own peer, let before := ExchangeHistory.of (effective d (ops.take i) (new, s))
          before.own = some own ∧ before.peer = some peer ∧
          a = .sharedSecret ((own.exchange peer).secret f) ∧
          (run d (ops.take (i + 1)) (new, s)).2.1.brace = (own.exchange peer).brace f) ∧
      ∀ x secret c, (step d (.newRatchet secret) x).2.1.exchangeHalf = x.1.exchangeHalf ∧
        (step d (.nextMessageKeys c) x).2.1.exchangeHalf = x.1.exchangeHalf := by
  intro r h
  have hm : h.Matches f r.2.1 := exchange_run hd ops s
  refine ⟨hm.curve, hm.group, hm.point, hm.value, hm.brace, ?_, ?_⟩
  · intro i a hi ha
    rw [run_getElem?, hi] at ha
    have hok := Option.some.inj ha
    obtain ⟨x, hx, hanswer, hwritten⟩ := step_deriveSharedSecret_of_agrees hd hok
    obtain ⟨own, peer, hown, hpeer, rfl⟩ := (exchange_run hd (ops.take i) s).exchanged_eq_ok hx
    refine ⟨own, peer, hown, hpeer, hanswer, ?_⟩
    rw [List.take_add_one, hi, Option.toList_some, run_concat, hwritten]
  · intro x secret c
    have hratchet := (preserves_exchangeHalf_newRatchet d secret).map fun _ => Answer.done
    have hdraw := (preserves_exchangeHalf_nextMessageKeys d c).map Answer.messageKeys
    exact ⟨step_preserves hratchet x, step_preserves hdraw x⟩

/-- Keys are drawn, the peer's are set, an agreement succeeds and a key generation fails. -/
def sampleAgreement : List Operation :=
  [.generateKeys (sampleTurns .left).entropy,
    .setTheirKeys (sampleKeys .right).1.point (sampleKeys .right).2.value, .deriveSharedSecret,
    .generateKeys []]

section Sample

variable {d : Derivation Unit}

theorem step_generateKeys_sample :
    step d (.generateKeys (sampleTurns .left).entropy) (new, ()) = (.ok .done,
      { new with ourCurve := (sampleKeys .left).1, ourGroup := (sampleKeys .left).2 }, ()) := by
  rw [step_generateKeys, generated_sampleTurns]

theorem step_setTheirKeys_sample :
    step d (.setTheirKeys (sampleKeys .right).1.point (sampleKeys .right).2.value)
      (step d (.generateKeys (sampleTurns .left).entropy) (new, ())).2 =
      (.ok .done, metKeys sampleKeys .left, ()) := by
  rw [step_generateKeys_sample]
  rfl

theorem run_sampleAgreement_take_two :
    (run d (sampleAgreement.take 2) (new, ())).2 = (metKeys sampleKeys .left, ()) := by
  have htake : sampleAgreement.take 2 = [.generateKeys (sampleTurns .left).entropy] ++
      [.setTheirKeys (sampleKeys .right).1.point (sampleKeys .right).2.value] := rfl
  have hfirst : (run d [.generateKeys (sampleTurns .left).entropy] (new, ())).2 =
      (step d (.generateKeys (sampleTurns .left).entropy) (new, ())).2 := run_concat [] _ _
  rw [htake, run_concat, hfirst, step_setTheirKeys_sample]

theorem step_deriveSharedSecret_sample (hd : d.Computes f) :
    ∃ a, (step d .deriveSharedSecret (metKeys sampleKeys .left, ())).1 = .ok a := by
  obtain ⟨x, hx⟩ := exchanged_sampleKeys .left
  exact ⟨_, (step_deriveSharedSecret_of_ok hd hx ()).1⟩

theorem effective_sampleAgreement_take_two :
    effective d (sampleAgreement.take 2) (new, ()) = sampleAgreement.take 2 := by
  have hfirst : (step d (.generateKeys (sampleTurns .left).entropy) (new, ())).1 = .ok .done := by
    rw [step_generateKeys_sample]
  have hsecond := congrArg Prod.fst (step_setTheirKeys_sample (d := d))
  rw [sampleAgreement, List.take_succ_cons, List.take_succ_cons, effective_cons_of_ok hfirst,
    effective_cons_of_ok hsecond]
  rfl

/-- The last key generation is the only operation that fails. -/
theorem effective_sampleAgreement (hd : d.Computes f) :
    effective d sampleAgreement (new, ()) = sampleAgreement.take 3 := by
  obtain ⟨a, hagrees⟩ := step_deriveSharedSecret_sample hd
  have hfirst : (step d (.generateKeys (sampleTurns .left).entropy) (new, ())).1 = .ok .done := by
    rw [step_generateKeys_sample]
  have hsecond := congrArg Prod.fst (step_setTheirKeys_sample (d := d))
  rw [sampleAgreement, effective_cons_of_ok hfirst, effective_cons_of_ok hsecond,
    step_setTheirKeys_sample, effective_cons_of_ok hagrees, effective_cons_of_error rfl]
  rfl

theorem run_sampleAgreement_agrees (hd : d.Computes f) :
    ∃ a, (run d sampleAgreement (new, ())).1[2]? = some (.ok a) := by
  obtain ⟨a, hagrees⟩ := step_deriveSharedSecret_sample hd
  have hplace : sampleAgreement[2]? = some .deriveSharedSecret := rfl
  exact ⟨a, by rw [run_getElem?, hplace, Option.map_some, run_sampleAgreement_take_two, hagrees]⟩

def sampleOwn : OwnDraws := ⟨.fit 56 [4], .fit 80 (List.replicate 79 0 ++ [4])⟩

def samplePeer : PeerKeys := ⟨(sampleKeys .right).1.point, (sampleKeys .right).2.value⟩

theorem drawn?_sampleTurns : OwnDraws.drawn? (sampleTurns .left).entropy = some sampleOwn := rfl

theorem history_sampleAgreement_take_two :
    ExchangeHistory.of (sampleAgreement.take 2) = ⟨some sampleOwn, some samplePeer, none⟩ := by
  simp only [sampleAgreement, List.take, ExchangeHistory.of, List.foldl, ExchangeHistory.next,
    drawn?_sampleTurns]
  rfl

theorem history_sampleAgreement_take_three : ExchangeHistory.of (sampleAgreement.take 3) =
    ⟨some sampleOwn, some samplePeer, some (sampleOwn.exchange samplePeer)⟩ := by
  simp only [sampleAgreement, List.take, ExchangeHistory.of, List.foldl, ExchangeHistory.next,
    drawn?_sampleTurns]
  rfl

end Sample

theorem exchange_half_of_run_sampleAgreement :
    let r := run (.shake : Derivation Unit) sampleAgreement (new, ())
    (Derivation.shake : Derivation Unit).AgreesWith Query.shake ∧
      r.2.1.ourCurve = sampleOwn.curve ∧ r.2.1.ourGroup = sampleOwn.group ∧
      r.2.1.theirPoint = samplePeer.point ∧ r.2.1.theirValue = samplePeer.value ∧
      r.2.1.brace = (sampleOwn.exchange samplePeer).brace Query.shake ∧
      sampleAgreement[2]? = some .deriveSharedSecret ∧
      r.1[2]? = some (.ok (.sharedSecret ((sampleOwn.exchange samplePeer).secret Query.shake))) := by
  have hd : (Derivation.shake : Derivation Unit).AgreesWith Query.shake :=
    Derivation.computes_shake.agreesWith
  have heffective := effective_sampleAgreement (d := .shake) Derivation.computes_shake
  obtain ⟨a, ha⟩ := run_sampleAgreement_agrees (d := .shake) Derivation.computes_shake
  have hhalf := exchange_half_of_run hd sampleAgreement ()
  simp only [heffective, history_sampleAgreement_take_three, Option.elim_some] at hhalf
  obtain ⟨hcurve, hgroup, hpoint, hvalue, hbrace, hagreements, -⟩ := hhalf
  obtain ⟨own, peer, hown, hpeer, hanswer, -⟩ := hagreements 2 a rfl ha
  rw [effective_sampleAgreement_take_two, history_sampleAgreement_take_two] at hown hpeer
  obtain rfl := Option.some.inj hown
  obtain rfl := Option.some.inj hpeer
  exact ⟨hd, hcurve, hgroup, hpoint, hvalue, hbrace, rfl, hanswer ▸ ha⟩

end KeyManager

end DeniableHandshake
