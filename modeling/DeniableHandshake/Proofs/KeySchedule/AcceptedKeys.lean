import DeniableHandshake.Proofs.Gate
import DeniableHandshake.Proofs.KeySchedule.Exchange
import DeniableHandshake.Proofs.Profile.Signed
import DeniableHandshake.Receive

/-!
# Agreement with values that the gate accepted

An offer that the gate rejects leaves the manager as it was, and one that it accepts changes the peer's
values only. A manager that was only given values that the gate accepts holds valid ones, from the first
that it is given until it is cleared. With them the agreement can only fail for want of an own key, because the
exchange ends at zero, or in the derivation.
-/
namespace DeniableHandshake
open Session

variable {σ : Type} {d : Derivation σ} {m : KeyManager} {s : σ} {e : KeyError}

/-- The derivation answers the query with this error in some state. -/
def Derivation.Refuses (d : Derivation σ) (q : Query) (n : Nat) (e : KeyError) : Prop :=
  ∃ t r, (d.answer q n t).1 = .error r ∧ r.error = e

/-- One of the two queries of an agreement is answered with this error. -/
def Derivation.RefusesAgreement (d : Derivation σ) (e : KeyError) : Prop :=
  ∃ u ∈ [Usage.braceKey, Usage.sharedSecret], ∃ secret n, d.Refuses (u.query secret) n e

/-- The peer's values, if the operation sets them, are ones that the gate accepts. -/
def Operation.PassesGate : Operation → Prop
  | .setTheirKeys point value => ∃ profile now, Gate.check point value profile now = .accept
  | _ => True

namespace KeyManager

/-- The peer's values are ones that the gate takes. -/
structure PeerValid (m : KeyManager) : Prop where
  point : m.theirPoint.isValid = true
  value : m.theirValue.isValid = true

/-! ### What can fail in an agreement -/

theorem exchanged_eq_ite (m : KeyManager) : m.exchanged =
    if m.ourCurve.isEmpty then .error (.missingKey .ourCurveKey)
    else if m.theirPoint.isZero then .error (.missingKey .theirCurvePoint)
    else if m.theirValue.isZero then .error (.missingKey .theirGroupValue)
    else m.ourCurve.shared m.theirPoint >>= fun curve =>
      m.ourGroup.shared m.theirValue >>= fun group => .ok (curve, group) := by
  unfold exchanged
  cases m.ourCurve.isEmpty with
  | true => rfl
  | false =>
    cases m.theirPoint.isZero with
    | true => rfl
    | false =>
      cases m.theirValue.isZero with
      | true => rfl
      | false => rfl

theorem exchanged_of_peerValid (hm : m.PeerValid) : m.exchanged =
    if m.ourCurve.isEmpty then .error (.missingKey .ourCurveKey)
    else if (Curve448.x448 m.ourCurve.scalar m.theirPoint).isZero then .error .lowOrderSecret
    else if m.ourGroup.isEmpty then .error (.missingKey .ourGroupKey)
    else .ok (Curve448.x448 m.ourCurve.scalar m.theirPoint,
      .bigEndian Modp3072.width (Modp3072.power m.theirValue.toNat m.ourGroup.secret)) := by
  rw [exchanged_eq_ite, Curve448.Point.isZero_of_isValid hm.point,
    Modp3072.Value.isZero_of_isValid hm.value, Curve448.Keypair.shared_of_isValid hm.point,
    Modp3072.Keypair.shared_of_isValid hm.value]
  generalize Curve448.x448 m.ourCurve.scalar m.theirPoint = curve
  cases curve.isZero with
  | true => rfl
  | false =>
    cases m.ourGroup.isEmpty with
    | true => rfl
    | false => rfl

theorem mem_of_exchanged_error (hm : m.PeerValid) (h : m.exchanged = .error e) :
    e ∈ [.missingKey .ourCurveKey, .missingKey .ourGroupKey, .lowOrderSecret] := by
  rw [exchanged_of_peerValid hm] at h
  split at h
  · cases h
    decide
  split at h
  · cases h
    decide
  split at h
  · cases h
    decide
  · cases h

theorem refuses_of_ask {q : Query} {n : Nat} {x t : KeyManager × σ}
    (h : ask d q n x = .error e t) : d.Refuses q n e := by
  unfold ask at h
  rcases hs : d.answer q n x.2 with ⟨r | b, t'⟩
  · simp only [hs] at h
    cases h
    exact ⟨x.2, r, congrArg Prod.fst hs, rfl⟩
  · simp only [hs] at h
    cases h

/-- An agreement fails in the checks and the exchange, or in one of its two queries. -/
theorem error_of_step_deriveSharedSecret (h : (step d .deriveSharedSecret (m, s)).1 = .error e) :
    m.exchanged = .error e ∨ d.RefusesAgreement e := by
  cases hx : m.exchanged with
  | error e' =>
    rw [step_deriveSharedSecret_of_error d hx, Except.error.injEq] at h
    exact .inl (congrArg _ h)
  | ok x =>
    right
    have hmanager : (manager : Session σ KeyManager) (m, s) = .ok m (m, s) := rfl
    have hexchanged : (ofExcept m.exchanged : Session σ ExchangedBytes) (m, s) = .ok x (m, s) := by
      rw [hx]
      rfl
    have hsession := (congrFun (deriveSharedSecret_eq d) (m, s)).trans
      ((bind_of_ok hmanager).trans (bind_of_ok hexchanged))
    have hperform : perform d .deriveSharedSecret (m, s) =
        (Answer.sharedSecret <$> deriveSharedSecret d) (m, s) := rfl
    rw [map_eq_pure_bind] at hperform
    cases hbrace : ask d (Usage.braceKey.query x.2.toList) braceKeySize (m, s) with
    | error e₁ t₁ =>
      rw [bind_of_error hbrace] at hsession
      rw [step, hperform, bind_of_error hsession] at h
      cases h
      exact ⟨.braceKey, by decide, _, _, refuses_of_ask hbrace⟩
    | ok brace t₁ =>
      rw [bind_of_ok hbrace] at hsession
      cases hsecret : ask d (Usage.sharedSecret.query (x.1.toList ++ brace.toList)) sharedSecretSize
          t₁ with
      | error e₂ t₂ =>
        rw [bind_of_error hsecret] at hsession
        rw [step, hperform, bind_of_error hsession] at h
        cases h
        exact ⟨.sharedSecret, by decide, _, _, refuses_of_ask hsecret⟩
      | ok secret t₂ =>
        rw [bind_of_ok hsecret] at hsession
        rw [step, hperform, bind_of_ok hsession] at h
        cases h

/-! ### The peer's values along a run -/

/-- What is known of the peer. -/
def peerValues (m : KeyManager) : Curve448.Point × Modp3072.Value := (m.theirPoint, m.theirValue)

theorem PeerValid.of_peerValues_eq {m' : KeyManager} (hm : m.PeerValid)
    (h : m'.peerValues = m.peerValues) : m'.PeerValid := by
  obtain ⟨hpoint, hvalue⟩ := Prod.mk.inj h
  exact ⟨hpoint ▸ hm.point, hvalue ▸ hm.value⟩

theorem peerValid_step_setTheirKeys {point : Curve448.Point} {value : Modp3072.Value}
    (h : (Operation.setTheirKeys point value).PassesGate) (x : KeyManager × σ) :
    (step d (.setTheirKeys point value) x).2.1.PeerValid := by
  obtain ⟨profile, now, haccept⟩ := h
  obtain ⟨hpoint, hvalue⟩ := Gate.isValid_of_accept haccept
  exact ⟨hpoint, hvalue⟩

theorem PeerValid.step {x : KeyManager × σ} (hm : x.1.PeerValid) {op : Operation}
    (hop : op.PassesGate) (hkept : op ≠ .destroy) : (step d op x).2.1.PeerValid := by
  cases op with
  | generateKeys entropy =>
    have hpart : Preserves peerValues (generateKeys entropy : Session σ Unit) :=
      preserves_generateKeys entropy fun _ _ _ => rfl
    exact hm.of_peerValues_eq (step_preserves (hpart.map _) x)
  | setTheirKeys point value => exact peerValid_step_setTheirKeys hop x
  | deriveSharedSecret =>
    have hpart : Preserves peerValues (deriveSharedSecret d) :=
      preserves_deriveSharedSecret d fun _ _ => rfl
    exact hm.of_peerValues_eq (step_preserves (hpart.map _) x)
  | newRatchet secret =>
    have hpart : Preserves peerValues (newRatchet d secret) :=
      preserves_newRatchet d secret fun _ _ => rfl
    exact hm.of_peerValues_eq (step_preserves (hpart.map _) x)
  | nextMessageKeys chain =>
    have hpart : Preserves peerValues (nextMessageKeys d chain) :=
      preserves_nextMessageKeys d chain fun _ _ => rfl
    exact hm.of_peerValues_eq (step_preserves (hpart.map _) x)
  | destroy => exact absurd rfl hkept

theorem PeerValid.run {ops : List Operation} {x : KeyManager × σ} (hm : x.1.PeerValid)
    (hops : ∀ op ∈ ops, op.PassesGate) (hkept : .destroy ∉ ops) : (run d ops x).2.1.PeerValid := by
  induction ops generalizing x with
  | nil => exact hm
  | cons op ops ih =>
    obtain ⟨hop, hrest⟩ := List.forall_mem_cons.mp hops
    have hfirst : op ≠ .destroy := fun h => hkept (h ▸ List.mem_cons_self)
    have hlater : .destroy ∉ ops := fun h => hkept (List.mem_cons_of_mem _ h)
    exact ih (hm.step hop hfirst) hrest hlater

/-- Whenever the peer's values were set last, the manager holds valid ones until it is cleared. -/
theorem peerValid_of_run {before between : List Operation} {point : Curve448.Point}
    {value : Modp3072.Value}
    (hops : ∀ op ∈ before ++ .setTheirKeys point value :: between, op.PassesGate)
    (hkept : .destroy ∉ between) (x : KeyManager × σ) :
    (run d (before ++ .setTheirKeys point value :: between) x).2.1.PeerValid := by
  obtain ⟨-, hset, hrest⟩ := List.forall_mem_append.mp hops |>.imp_right List.forall_mem_cons.mp
  induction before generalizing x with
  | nil =>
    have hfirst : (step d (.setTheirKeys point value) x).2.1.PeerValid :=
      peerValid_step_setTheirKeys hset x
    exact hfirst.run hrest hkept
  | cons op before ih => exact ih (List.forall_mem_cons.mp hops).2 _

/-! ### Received offers -/

section Receive

variable {o : Offer} {now : UInt64} {x : KeyManager × σ}

theorem receive_of_reject {failures : List Gate.Failure} (h : o.check now = .reject failures)
    (x : KeyManager × σ) : receive o now x = .ok (.reject failures) x := by
  unfold receive
  rw [h]
  rfl

theorem receive_of_accept (h : o.check now = .accept) (x : KeyManager × σ) : receive o now x =
    .ok .accept ({ x.1 with theirPoint := o.point, theirValue := o.value }, x.2) := by
  unfold receive
  rw [h]
  rfl

/-- Offers reach the manager as values that pass the gate. -/
theorem after_receive_of_accept (d : Derivation σ) (h : o.check now = .accept) (x : KeyManager × σ) :
    (Operation.setTheirKeys o.point o.value).PassesGate ∧
      (receive o now).after x = (step d (.setTheirKeys o.point o.value) x).2 :=
  ⟨⟨o.profile, now, h⟩, after_of_ok (receive_of_accept h x)⟩

theorem PeerValid.receive (hm : x.1.PeerValid) (o : Offer) (now : UInt64) :
    ((KeyManager.receive o now).after x).1.PeerValid := by
  cases h : o.check now with
  | accept =>
    obtain ⟨hpasses, hafter⟩ := after_receive_of_accept .shake h x
    rw [hafter]
    exact peerValid_step_setTheirKeys hpasses x
  | reject failures =>
    rw [after_of_ok (receive_of_reject h x)]
    exact hm

end Receive

/-- An agreement of a manager whose peer values all passed the gate, and were set since it was new or
cleared last, does not fail because of them. -/
theorem derive_with_accepted_values (d : Derivation σ) (x : KeyManager × σ) {ops : List Operation}
    {i : Nat} {before between : List Operation} {point : Curve448.Point} {value : Modp3072.Value}
    (hops : ∀ op ∈ ops, op.PassesGate)
    (hset : ops.take i = before ++ .setTheirKeys point value :: between)
    (hkept : .destroy ∉ between) (hderive : ops[i]? = some .deriveSharedSecret) :
    ∃ outcome, (run d ops x).1[i]? = some outcome ∧ ∀ e, outcome = .error e →
      (e ∈ [.missingKey .ourCurveKey, .missingKey .ourGroupKey, .lowOrderSecret] ∨
        d.RefusesAgreement e) ∧
      ((∀ q n, ¬ d.Refuses q n e) → e ∉ [.missingKey .theirCurvePoint, .missingKey .theirGroupValue,
        .invalidPoint, .invalidGroupValue]) := by
  refine ⟨_, by rw [run_getElem?, hderive]; rfl, ?_⟩
  intro e he
  have htaken : ∀ op ∈ ops.take i, op.PassesGate := fun op hop => hops op (List.mem_of_mem_take hop)
  rw [hset] at htaken he
  have hpeer := peerValid_of_run (d := d) htaken hkept x
  have hcause := (error_of_step_deriveSharedSecret he).imp_left (mem_of_exchanged_error hpeer)
  refine ⟨hcause, ?_⟩
  intro hderivation
  obtain howned | ⟨u, -, secret, n, hrefuses⟩ := hcause
  · fin_cases howned <;> decide
  · exact absurd hrefuses (hderivation _ _)

/-- The base point, the generator and a profile signed here pass the gate, and no own key is set. -/
theorem derive_with_accepted_values_base :
    let d : Derivation Unit := .shake
    let value := Modp3072.Value.ofNat (Modp3072.power Modp3072.generator 1)
    let ops : List Operation := [.setTheirKeys .base value, .newRatchet [1], .deriveSharedSecret]
    (∀ op ∈ ops, op.PassesGate) ∧ ∃ e, (run d ops (new, ())).1[2]? = some (.error e) ∧
      e ∈ [.missingKey .ourCurveKey, .missingKey .ourGroupKey, .lowOrderSecret] := by
  intro d value ops
  have hvalue : value.isValid = true :=
    Modp3072.Value.isValid_ofNat_power (by decide +kernel) (by decide +kernel) (by decide +kernel)
  have haccept : Gate.check .base value (.sign (.zero 32) "34" 100) 50 = .accept := by
    have hsigned := Profile.verifies_sign (.zero 32) "34" 100
    have hexpires : (Profile.sign (.zero 32) "34" 100).isExpired 50 = false := rfl
    have hversions : (Profile.sign (.zero 32) "34" 100).versionsAccepted = true := by
      rw [Profile.versionsAccepted, Profile.sign]
      decide +kernel
    rw [Gate.check_eq_accept_iff]
    simp [Gate.checks, Curve448.Point.isValid_base, hvalue, hsigned, hexpires, hversions]
  have hops : ∀ op ∈ ops, op.PassesGate := by
    simp only [ops, List.forall_mem_cons]
    exact ⟨⟨_, _, haccept⟩, trivial, trivial, List.forall_mem_nil _⟩
  have hset : ops.take 2 = [] ++ .setTheirKeys .base value :: [.newRatchet [1]] := rfl
  have hkept : Operation.destroy ∉ [.newRatchet [1]] := by simp
  obtain ⟨outcome, houtcome, hcause⟩ := derive_with_accepted_values d (new, ()) hops hset hkept rfl
  have hfails : (run d ops (new, ())).1[2]? = some (.error (.missingKey .ourCurveKey)) := rfl
  obtain rfl := Option.some.inj (houtcome.symm.trans hfails)
  obtain hlisted | ⟨u, -, secret, n, t, r, hanswer, -⟩ := (hcause _ rfl).1
  · exact ⟨hops, _, houtcome, hlisted⟩
  · cases hanswer

end KeyManager

end DeniableHandshake
