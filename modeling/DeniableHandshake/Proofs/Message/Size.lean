import DeniableHandshake.Proofs.Message.RoundTrip

/-!
# Sizes of messages and values that are too long

A message is appended to what the buffer holds, and the count that is returned is its length, which is known
beforehand from the lengths of its parts. The one part that can be refused is a group value longer than the
prime: then what stands in front of it has been appended, and nothing after it.
-/
namespace DeniableHandshake

/-- What was appended before the error stays in the buffer. -/
theorem Writer.tryCatch_of_error {α : Type} {w : Writer α} {f : WireError → Writer α} {error : WireError}
    {buffer left : Bytes} (h : w buffer = .error error left) : tryCatch w f buffer = f error left := by
  change EStateM.tryCatch w f buffer = _
  delta EStateM.tryCatch
  rw [h]
  rfl

theorem Offer.length_layout (o : Offer) : Header.size + (o.layout 0).length = o.messageSize := by
  simp only [layout, messageSize, List.length_append, Profile.length_layout, o.point.encoding.length_toList,
    length_lengthPrefixed, List.replicate_zero, List.nil_append, Field.lengthSize]
  omega

theorem Payload.length_optionalLayout (p : Option Payload) :
    (optionalLayout p).length = p.elim 0 fun p => 28 + p.ciphertext.length := by
  cases p with
  | none => rfl
  | some p => exact p.length_layout

namespace Body

variable {k : Kind} {b : Body k} {o : Offer}

/-- The length of a message with this body. -/
def messageSize : {k : Kind} → Body k → Nat
  | .identity, (o : Offer) => o.messageSize
  | .authR, (r : Reply) => r.offer.messageSize + ringProofSize
  | .authI, _ => RingProof.messageSize
  | .prekey, (o : Offer) => o.messageSize
  | .nonInteractiveAuth, (s : SealedReply) =>
    s.reply.offer.messageSize + (ringProofSize + authTagSize) +
      s.payload.elim 0 fun p => 28 + p.ciphertext.length

theorem length_layout (b : Body k) : Header.size + (b.layout 0).length = b.messageSize := by
  cases k with
  | identity => exact Offer.length_layout b
  | authR =>
    have hoffer := (Reply.offer b).length_layout
    have hproof := (Reply.proof b).encoding.length_toList
    simp only [layout, messageSize, Reply.layout, List.length_append]
    omega
  | authI => exact congrArg (Header.size + ·) (RingProof.encoding b).length_toList
  | prekey => exact Offer.length_layout b
  | nonInteractiveAuth =>
    have hoffer := (SealedReply.reply b).offer.length_layout
    have hproof := (SealedReply.reply b).proof.encoding.length_toList
    have hpayload := Payload.length_optionalLayout (SealedReply.payload b)
    have htag := (SealedReply.authTag b).length_toList
    simp only [layout, messageSize, SealedReply.layout, Reply.layout, List.length_append]
    omega

/-- The lengths of all parts but the group value can be declared. -/
structure Declarable (b : Body k) : Prop where
  profile : ∀ o ∈ b.offer?, o.profile.Encodable
  payload : ∀ p ∈ b.payload?, p.ciphertext.length < 2 ^ 32

theorem Declarable.fits (hb : b.Declarable)
    (hvalue : ∀ o ∈ b.offer?, o.value.magnitude.length ≤ Modp3072.width) : b.Fits 0 where
  offer o ho := ⟨hb.profile o ho, hvalue o ho⟩
  no_offer _ := rfl
  payload := hb.payload

end Body

/-! ## Values that are too long -/

/-- The bytes in front of the group value. -/
def Offer.front (o : Offer) : Bytes := o.profile.layout ++ o.point.encoding.toList

def Offer.tooLarge (o : Offer) : WireError :=
  .tooLarge "dh public key" o.value.magnitude.length Modp3072.width

section TooLong

variable {o : Offer} (hprofile : o.profile.Encodable) (hvalue : Modp3072.width < o.value.magnitude.length)
include hprofile hvalue

theorem Field.fails_offer : offer.Fails o o.tooLarge o.front := by
  have hpoint : curvePoint.Writes o.point o.point.encoding.toList := writes_curvePoint.mpr rfl
  have hwrites : profile.Writes o.profile o.profile.layout := writes_profile.mpr ⟨hprofile, rfl⟩
  have hfails := ((fails_groupValue hvalue).pair_right hpoint).pair_right hwrites
  rwa [List.append_nil] at hfails

/-- Nothing that follows the offer is looked at. -/
theorem Field.fails_body {k : Kind} {b : Body k} (ho : b.offer? = some o) :
    (body k).Fails b o.tooLarge o.front := by
  have hoffer := fails_offer hprofile hvalue
  cases k with
  | identity =>
    cases ho
    exact hoffer
  | authR =>
    cases ho
    exact hoffer.pair_left ringProof _
  | authI => cases ho
  | prekey =>
    cases ho
    exact hoffer
  | nonInteractiveAuth =>
    cases ho
    exact (hoffer.pair_left ringProof _).pair_left sealing _

theorem Envelope.fails {k : Kind} {e : Envelope k} (ho : e.body.offer? = some o) : (Field.envelope k).Fails e
    o.tooLarge ((Header.ofKind k e.sender e.receiver).toBytes ++ o.front) :=
  (Field.fails_body hprofile hvalue ho).pair_right (Field.writes_tags.mpr rfl)

end TooLong

namespace Message

/-- A message whose group value is no longer than the prime is appended to what the buffer holds, with its
length as the count; a longer value is refused after the header, the profile and the point were appended. The
message itself is only read, so it is encoded again as before. -/
theorem encode_exact (m : Message) (hm : m.envelope.body.Declarable) :
    ((∀ o ∈ m.offer?, o.value.magnitude.length ≤ Modp3072.width) →
      ∃ e, m.toBytes = .ok e ∧ e.length = m.envelope.body.messageSize ∧
        ∀ buffer, m.encode buffer = .ok e.length (buffer ++ e) ∧
          (m.encode >>= fun _ => m.encode) buffer = .ok e.length (buffer ++ e ++ e)) ∧
    ∀ o ∈ m.offer?, Modp3072.width < o.value.magnitude.length →
      let error := WireError.tooLarge "dh public key" o.value.magnitude.length Modp3072.width
      let front := (Header.ofKind m.kind m.sender m.receiver).toBytes ++
        (o.profile.layout ++ o.point.encoding.toList)
      m.toBytes = .error error ∧
        ∀ buffer, m.encode buffer = .error error (buffer ++ front) ∧
          (tryCatch m.encode fun _ => m.encode) buffer = .error error (buffer ++ front ++ front) := by
  constructor
  · intro hvalue
    have hwrites := Envelope.writes_iff.mpr ⟨hm.fits hvalue, rfl⟩
    have hencode (buffer : Bytes) : m.encode buffer =
        .ok (m.envelope.layout 0).length (buffer ++ m.envelope.layout 0) := hwrites buffer
    refine ⟨_, Envelope.toBytes_of_writes hwrites, ?_, fun buffer => ⟨hencode buffer, ?_⟩⟩
    · rw [Envelope.layout, List.length_append, Header.length_toBytes, Body.length_layout]
    · simp only [bind, EStateM.bind, hencode]
  · intro o ho hvalue error front
    have hfails := Envelope.fails (hm.profile o ho) hvalue ho
    have hencode (buffer : Bytes) : m.encode buffer = .error error (buffer ++ front) := hfails buffer
    refine ⟨Envelope.toBytes_of_fails hfails, fun buffer => ⟨hencode buffer, ?_⟩⟩
    rw [Writer.tryCatch_of_error (hencode buffer), hencode]

/-- A group value of one byte more than the prime. -/
def overlongOffer : Offer := ⟨.empty, .base, ⟨List.replicate 385 1, by simp⟩⟩

theorem length_magnitude_overlongOffer : overlongOffer.value.magnitude.length = 385 := List.length_replicate

theorem encode_exact_samples :
    sealedSample.envelope.body.Declarable ∧ (∃ e, sealedSample.toBytes = .ok e ∧ e.length = 619) ∧
    let overlong : Message := ⟨.prekey, 1, 2, overlongOffer⟩
    overlong.envelope.body.Declarable ∧ ∃ front, front.length = 11 + 114 + 56 ∧
      ∀ buffer, overlong.encode buffer = .error (.tooLarge "dh public key" 385 384) (buffer ++ front) := by
  have hsealed : sealedSample.envelope.body.Declarable :=
    ⟨fun o ho => (encodable_sealedSample.offer o ho).profile, encodable_sealedSample.payload⟩
  obtain ⟨e, he, hlength, -⟩ := (encode_exact sealedSample hsealed).1 fun o ho =>
    (encodable_sealedSample.offer o ho).magnitude
  refine ⟨hsealed, ⟨e, he, hlength⟩, ?_⟩
  intro overlong
  have hoverlong : overlong.envelope.body.Declarable := by
    refine ⟨fun o ho => ?_, nofun⟩
    cases ho
    exact ⟨by decide, by decide⟩
  have hvalue : Modp3072.width < overlongOffer.value.magnitude.length := by
    rw [length_magnitude_overlongOffer]
    decide
  obtain ⟨-, hfails⟩ := (encode_exact overlong hoverlong).2 overlongOffer rfl hvalue
  rw [length_magnitude_overlongOffer] at hfails
  refine ⟨hoverlong, _, ?_, fun buffer => (hfails buffer).1⟩
  rw [List.length_append, List.length_append, Header.length_toBytes, Profile.length_layout,
    Block.length_toList]
  rfl

end Message

end DeniableHandshake
