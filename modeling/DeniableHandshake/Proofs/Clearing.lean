import DeniableHandshake.Message.Basic
import DeniableHandshake.Proofs.KeySchedule.Lockstep

/-!
# Clearing leaves no trace

A cleared manager is a new one, so nothing that it does later tells what it was before, as long as the
derivation answers as it would have answered a new manager. A cleared message keeps its tags and is otherwise
the new message of its kind around the empty profile; no part of a body is forgotten.
-/
namespace DeniableHandshake

/-! ### Derivations that cannot be told apart -/

namespace Derivation
variable {σ σ' : Type}

/-- The answers to queries that are asked one after another. What a failure leaves in its block is no answer. -/
def answers (d : Derivation σ) : List (Query × Nat) → σ → List (Except KeyError Bytes)
  | [], _ => []
  | (q, n) :: rest, s =>
    let answer := match (d.answer q n s).1 with
      | .ok b => .ok b.toList
      | .error r => .error r.error
    answer :: d.answers rest (d.answer q n s).2

/-- No queries tell the one derivation from the other, each from its state on. -/
def AnswersAs (d : Derivation σ) (s : σ) (d' : Derivation σ') (s' : σ') : Prop :=
  ∀ queries, d.answers queries s = d'.answers queries s'

theorem limited_answersAs_shake : limited.AnswersAs none (shake : Derivation Unit) () := by
  intro queries
  induction queries with
  | nil => rfl
  | cons q rest ih => exact List.cons_eq_cons.mpr ⟨rfl, ih⟩

end Derivation

namespace Session

theorem lockstep_ask_of_answersAs {σ σ' : Type} (d : Derivation σ) (d' : Derivation σ') (q : Query)
    (n : Nat) : Lockstep (fun s s' => d.AnswersAs s d' s') (ask d q n) (ask d' q n) := by
  intro m s s' h
  -- the query alone tells the answers, and followed by others what the states left answer
  have hlater : d.AnswersAs (d.answer q n s).2 d' (d'.answer q n s').2 :=
    fun rest => (List.cons.inj (h ((q, n) :: rest))).2
  have hnow := (List.cons.inj (h [(q, n)])).1
  unfold ask
  rcases hs : d.answer q n s with ⟨r | b, t⟩
  · rcases hs' : d'.answer q n s' with ⟨r' | b', t'⟩
    · simp only [hs, hs', Except.error.injEq] at hnow hlater ⊢
      rw [hnow]
      exact .error r'.error m hlater
    · simp only [hs, hs'] at hnow
      cases hnow
  · rcases hs' : d'.answer q n s' with ⟨r' | b', t'⟩
    · simp only [hs, hs'] at hnow
      cases hnow
    · simp only [hs, hs', Except.ok.injEq, Block.toList_inj] at hnow hlater ⊢
      rw [hnow]
      exact .ok b' m hlater

end Session

namespace KeyManager

theorem asksAlike_answersAs {σ σ' : Type} (d : Derivation σ) (d' : Derivation σ') :
    AsksAlike (fun s s' => d.AnswersAs s d' s') d d' :=
  ⟨fun u secret n => Session.lockstep_ask_of_answersAs d d' (u.query secret) n,
    fun root secret n => Session.lockstep_ask_of_answersAs d d' (.keyed root.toList secret) n⟩

end KeyManager

/-! ### Cleared messages -/

namespace Body
variable {k : Kind}

/-- No part that the body has holds anything. -/
structure Cleared (b : Body k) : Prop where
  offer : ∀ o, b.offer? = some o →
    o = ⟨⟨.zero identityKeySize, "", 0, .zero signatureSize, []⟩, .zero, .zero⟩
  proof : ∀ p, b.proof? = some p → p = .zero
  sealing : ∀ r, b.sealed? = some r → r.payload = none ∧ r.authTag = .zero authTagSize

/-- There is one cleared body of each kind: the parts are all that a body has. -/
theorem cleared_iff {b : Body k} : b.Cleared ↔ b = fresh .empty k := by
  constructor
  · intro h
    cases k with
    | identity => exact h.offer _ rfl
    | prekey => exact h.offer _ rfl
    | authI => exact h.proof _ rfl
    | authR =>
      obtain ⟨offer, proof⟩ := b
      obtain rfl := h.offer offer rfl
      obtain rfl := h.proof proof rfl
      rfl
    | nonInteractiveAuth =>
      obtain ⟨⟨offer, proof⟩, payload, authTag⟩ := b
      obtain rfl := h.offer offer rfl
      obtain rfl := h.proof proof rfl
      obtain ⟨rfl, rfl⟩ := h.sealing _ rfl
      rfl
  · rintro rfl
    refine ⟨?_, ?_, ?_⟩
    · intro o ho
      cases k <;> cases ho <;> rfl
    · intro p hp
      cases k <;> cases hp <;> rfl
    · intro r hr
      cases k <;> cases hr
      exact ⟨rfl, rfl⟩

end Body

/-- Whatever two managers went through, clearing makes both new, and from then on they do what a new manager
does under a derivation that answers alike, such as the same derivation in the state that it is in. Clearing
makes messages of one kind with the same tags equal to each other and to the new message with these tags. -/
theorem destroy_leaves_no_trace {σ σ' : Type} (d : Derivation σ) (d' : Derivation σ')
    (past past' : List Operation) (s : σ) (s' : σ') :
    let x := KeyManager.step d .destroy (KeyManager.run d past (.new, s)).2
    let x' := KeyManager.step d' .destroy (KeyManager.run d' past' (.new, s')).2
    (x.1 = .ok .done ∧ x'.1 = .ok .done ∧ x.2.1 = .new ∧ x'.2.1 = .new) ∧
    (∀ t, d.AnswersAs x.2.2 d' t → ∀ later,
      (KeyManager.run d later x.2).1 = (KeyManager.run d' later (.new, t)).1 ∧
        (KeyManager.run d later x.2).2.1 = (KeyManager.run d' later (.new, t)).2.1) ∧
    ∀ (k : Kind) (e e' : Envelope k), e.sender = e'.sender → e.receiver = e'.receiver →
      e.destroy = e'.destroy ∧
        e.destroy = { Envelope.fresh .empty k with sender := e.sender, receiver := e.receiver } ∧
        e.destroy.body.Cleared := by
  intro x x'
  have hx : x = (.ok .done, .new, (KeyManager.run d past (.new, s)).2.2) := KeyManager.step_destroy d _
  have hx' : x' = (.ok .done, .new, (KeyManager.run d' past' (.new, s')).2.2) :=
    KeyManager.step_destroy d' _
  rw [hx, hx']
  refine ⟨⟨rfl, rfl, rfl, rfl⟩, ?_, ?_⟩
  · intro t ht later
    have hrun := KeyManager.run_lockstep (KeyManager.asksAlike_answersAs d d') later (m := .new) ht
    exact ⟨hrun.outcome, hrun.manager⟩
  · intro k e e' hsender hreceiver
    have hbody : e.body.destroy = e'.body.destroy := by
      rw [Body.destroy_eq_fresh, Body.destroy_eq_fresh]
    refine ⟨?_, ?_, ?_⟩
    · rw [Envelope.destroy, Envelope.destroy, hsender, hreceiver, hbody]
    · rw [Envelope.destroy, Body.destroy_eq_fresh]
      rfl
    · exact Body.cleared_iff.mpr (Body.destroy_eq_fresh e.body)

/-- The peer's values, a ratchet step and a draw, and all parts of a message, are forgotten. A limit that is no
limit is told apart from none by no queries. -/
theorem destroy_leaves_no_trace_limited :
    let past : List Operation := [.setTheirKeys .base (.ofBytes [9]), .newRatchet [1], .nextMessageKeys .a]
    let later : List Operation := [.nextMessageKeys .a, .newRatchet [2]]
    let x := KeyManager.step .limited .destroy (KeyManager.run .limited past (.new, none)).2
    let offer : Offer := ⟨⟨.zero 32, "34", 100, .bigEndian 64 7, [1, 2]⟩, .base, .ofBytes [9]⟩
    let e : Envelope .nonInteractiveAuth :=
      ⟨3, 4, (⟨⟨offer, .zero⟩, some ⟨[7], .bigEndian 24 5⟩, .bigEndian 64 11⟩ : SealedReply)⟩
    let e' : Envelope .nonInteractiveAuth := ⟨3, 4, (⟨.fresh .empty, none, .zero authTagSize⟩ : SealedReply)⟩
    Derivation.limited.AnswersAs x.2.2 (.shake : Derivation Unit) () ∧
      (KeyManager.run .limited later x.2).1 =
        (KeyManager.run (.shake : Derivation Unit) later (.new, ())).1 ∧
      e ≠ e' ∧ e.destroy = e'.destroy := by
  intro past later x offer e e'
  have halike : Derivation.limited.AnswersAs x.2.2 (.shake : Derivation Unit) () :=
    Derivation.limited_answersAs_shake
  obtain ⟨-, hlater, hmessages⟩ :=
    destroy_leaves_no_trace .limited (.shake : Derivation Unit) past [] none ()
  have hdiffer : e ≠ e' := by
    intro h
    cases congrArg (fun e : Envelope .nonInteractiveAuth => SealedReply.payload e.body) h
  exact ⟨halike, (hlater () halike later).1, hdiffer, (hmessages _ e e' rfl rfl).1⟩

end DeniableHandshake
