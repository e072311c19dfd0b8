import DeniableHandshake.Message.Wire
import DeniableHandshake.Proofs.Message.Header
import DeniableHandshake.Proofs.Profile.Layout
import DeniableHandshake.Proofs.Wire.Whole

/-!
# Layout of a message

The bytes of a message are its header and its parts one after another. `layout pad` has `pad` zero
bytes in front of the magnitude of the group value: a message is written with none, and it is read
from every layout whose padded magnitude is no longer than the prime, and from nothing else.
-/
namespace DeniableHandshake

namespace Offer

def layout (pad : Nat) (o : Offer) : Bytes :=
  o.profile.layout ++ (o.point.encoding.toList ++
    lengthPrefixed (List.replicate pad 0 ++ o.value.magnitude))

/-- All lengths can be declared with `pad` zero bytes in front of the magnitude. -/
structure Fits (pad : Nat) (o : Offer) : Prop where
  profile : o.profile.Encodable
  magnitude : o.value.magnitude.length + pad ≤ Modp3072.width

end Offer

namespace Payload

def layout (p : Payload) : Bytes := lengthPrefixed p.ciphertext ++ p.nonce.toList

theorem length_layout (p : Payload) : p.layout.length = 28 + p.ciphertext.length := by
  rw [layout, List.length_append, length_lengthPrefixed, p.nonce.length_toList, nonceSize]
  omega

/-- Nothing stands for an absent payload. -/
def optionalLayout : Option Payload → Bytes
  | none => []
  | some p => p.layout

end Payload

def Reply.layout (pad : Nat) (r : Reply) : Bytes := r.offer.layout pad ++ r.proof.encoding.toList

def SealedReply.layout (pad : Nat) (s : SealedReply) : Bytes :=
  s.reply.layout pad ++ (Payload.optionalLayout s.payload ++ s.authTag.toList)

namespace Body

variable {k : Kind}

def layout (pad : Nat) : {k : Kind} → Body k → Bytes
  | .identity, b => Offer.layout pad b
  | .authR, b => Reply.layout pad b
  | .authI, b => RingProof.encoding b |>.toList
  | .prekey, b => Offer.layout pad b
  | .nonInteractiveAuth, b => SealedReply.layout pad b

def payload? (b : Body k) : Option Payload := b.sealed?.bind (·.payload)

/-- All lengths can be declared with `pad` zero bytes in front of the magnitude, if there is one. -/
structure Fits (pad : Nat) (b : Body k) : Prop where
  offer : ∀ o ∈ b.offer?, o.Fits pad
  no_offer : b.offer? = none → pad = 0
  payload : ∀ p ∈ b.payload?, p.ciphertext.length < 2 ^ 32

theorem fits_iff_of_offer {pad : Nat} {b : Body k} {o : Offer} (ho : b.offer? = some o)
    (hp : b.payload? = none) : b.Fits pad ↔ o.Fits pad := by
  constructor
  · intro h
    exact h.offer o ho
  · intro h
    refine ⟨fun o' ho' => ?_, fun hnone => ?_, fun p hp' => ?_⟩
    · cases ho.symm.trans ho'
      exact h
    · cases ho.symm.trans hnone
    · cases hp.symm.trans hp'

theorem fits_authI {pad : Nat} {b : Body .authI} : b.Fits pad ↔ pad = 0 := by
  constructor
  · intro h
    exact h.no_offer rfl
  · intro h
    exact ⟨nofun, fun _ => h, nofun⟩

theorem fits_nonInteractiveAuth {pad : Nat} {b : Body .nonInteractiveAuth} :
    b.Fits pad ↔ (SealedReply.reply b).offer.Fits pad ∧
      ∀ p ∈ SealedReply.payload b, p.ciphertext.length < 2 ^ 32 := by
  constructor
  · intro h
    exact ⟨h.offer (SealedReply.reply b).offer rfl, h.payload⟩
  · rintro ⟨ho, hp⟩
    refine ⟨fun o' ho' => ?_, nofun, hp⟩
    cases ho'
    exact ho

end Body

namespace Field

/-! ## Offers and replies -/

instance : offer.Lawful := inferInstanceAs (iso _ _ _).Lawful

theorem writes_offer {o : Offer} {b : Bytes} : offer.Writes o b ↔ o.Fits 0 ∧ b = o.layout 0 := by
  rw [offer, writes_iso]
  simp only [writes_pair, writes_profile, writes_curvePoint, writes_groupValue]
  constructor
  · rintro ⟨_, _, rfl, ⟨hp, rfl⟩, _, _, rfl, rfl, hv, rfl⟩
    exact ⟨⟨hp, hv⟩, rfl⟩
  · rintro ⟨h, rfl⟩
    exact ⟨_, _, rfl, ⟨h.profile, rfl⟩, _, _, rfl, rfl, h.magnitude, rfl⟩

theorem reads_offer {o : Offer} {b : Bytes} :
    offer.read.Reads b o ↔ ∃ pad, o.Fits pad ∧ b = o.layout pad := by
  rw [offer, reads_iso]
  simp only [reads_pair, Canonical.reads_iff_writes, writes_profile, writes_curvePoint,
    reads_groupValue]
  constructor
  · rintro ⟨⟨profile, point, value⟩, ⟨_, _, rfl, ⟨hp, rfl⟩, _, _, rfl, rfl, pad, hv, rfl⟩, rfl⟩
    exact ⟨pad, ⟨hp, hv⟩, rfl⟩
  · rintro ⟨pad, h, rfl⟩
    exact ⟨(o.profile, o.point, o.value), ⟨_, _, rfl, ⟨h.profile, rfl⟩, _, _, rfl, rfl, pad,
      h.magnitude, rfl⟩, rfl⟩

instance : reply.Lawful := inferInstanceAs (iso _ _ _).Lawful

theorem writes_reply {r : Reply} {b : Bytes} :
    reply.Writes r b ↔ r.offer.Fits 0 ∧ b = r.layout 0 := by
  rw [reply, writes_iso]
  simp only [writes_pair, writes_offer, writes_ringProof]
  constructor
  · rintro ⟨_, _, rfl, ⟨ho, rfl⟩, rfl⟩
    exact ⟨ho, rfl⟩
  · rintro ⟨ho, rfl⟩
    exact ⟨_, _, rfl, ⟨ho, rfl⟩, rfl⟩

theorem reads_reply {r : Reply} {b : Bytes} :
    reply.read.Reads b r ↔ ∃ pad, r.offer.Fits pad ∧ b = r.layout pad := by
  rw [reply, reads_iso]
  simp only [reads_pair, reads_offer, Canonical.reads_iff_writes, writes_ringProof]
  constructor
  · rintro ⟨⟨offer, proof⟩, ⟨_, _, rfl, ⟨pad, ho, rfl⟩, rfl⟩, rfl⟩
    exact ⟨pad, ho, rfl⟩
  · rintro ⟨pad, ho, rfl⟩
    exact ⟨(r.offer, r.proof), ⟨_, _, rfl, ⟨pad, ho, rfl⟩, rfl⟩, rfl⟩

/-! ## Payloads and authentication tags -/

instance : payload.Canonical := Canonical.iso inferInstance (fun _ => rfl) fun _ => rfl

theorem writes_payload {p : Payload} {b : Bytes} :
    payload.Writes p b ↔ p.ciphertext.length < 2 ^ 32 ∧ b = p.layout := by
  rw [payload, writes_iso]
  simp only [writes_pair, writes_data, writes_block]
  constructor
  · rintro ⟨_, _, rfl, ⟨hc, rfl⟩, rfl⟩
    exact ⟨hc, rfl⟩
  · rintro ⟨hc, rfl⟩
    exact ⟨_, _, rfl, ⟨hc, rfl⟩, rfl⟩

theorem writes_optionalPayload {p : Option Payload} {b : Bytes} :
    optionalPayload.Writes p b ↔
      (∀ q ∈ p, q.ciphertext.length < 2 ^ 32) ∧ b = Payload.optionalLayout p := by
  cases p with
  | none =>
    have hnone : optionalPayload.Writes none [] := fun buffer => by
      rw [List.append_nil]
      rfl
    constructor
    · intro h
      exact ⟨nofun, h.unique hnone⟩
    · rintro ⟨-, rfl⟩
      exact hnone
  | some p =>
    have hsome : optionalPayload.Writes (some p) b ↔ payload.Writes p b := Iff.rfl
    rw [hsome, writes_payload]
    simp [Payload.optionalLayout]

instance : optionalPayload.Appending where
  writes_or_fails := by
    intro p
    cases p with
    | none => exact .inl ⟨[], writes_optionalPayload.mpr ⟨nofun, rfl⟩⟩
    | some p => exact Appending.writes_or_fails (f := payload) p

/-- The length of the whole rest decides whether a payload is read, so the reader is bounded without
being self-delimiting. -/
theorem bounded_optionalPayload : optionalPayload.read.Bounded where
  count_le := by
    intro input p n h
    unfold optionalPayload at h
    dsimp only at h
    split at h
    · obtain ⟨q, hq, hcount⟩ := map_eq_ok_iff.mp h
      cases hcount
      exact payload.selfDelimiting.bounded.count_le hq
    · cases h
      exact Nat.zero_le input.length

/-- What follows the proof in a sealed reply. -/
abbrev sealing : Field (Option Payload × Block authTagSize) :=
  optionalPayload.pair (block "auth tag" authTagSize)

theorem whole_sealing_short {b : Bytes} (hb : ¬ authTagSize < b.length) :
    sealing.read.whole b = (none, ·) <$> (block "auth tag" authTagSize).read.whole b := by
  have hread : optionalPayload.read b = .ok (none, 0) := by
    simp only [optionalPayload, if_neg hb]
  exact whole_pair_of_ok hread _

/-- More than an authentication tag is read as a payload and a tag. -/
theorem whole_sealing_long {b : Bytes} (hb : authTagSize < b.length) : sealing.read.whole b =
    (fun p => (some p.1, p.2)) <$> (payload.pair (block "auth tag" authTagSize)).read.whole b := by
  cases hp : payload.read b with
  | error e =>
    have hread : optionalPayload.read b = .error e := by
      simp only [optionalPayload, if_pos hb, hp]
      rfl
    rw [whole_pair_of_error hread, whole_pair_of_error hp]
    rfl
  | ok q =>
    have hread : optionalPayload.read b = .ok (some q.1, q.2) := by
      simp only [optionalPayload, if_pos hb, hp]
      rfl
    rw [whole_pair_of_ok hread, whole_pair_of_ok hp]
    cases (block "auth tag" authTagSize).read.whole (b.drop q.2) <;> rfl

theorem whole_sealing {p : Option Payload} {t : Block authTagSize} {b : Bytes} :
    sealing.read.whole b = .ok (p, t) ↔
      (∀ q ∈ p, q.ciphertext.length < 2 ^ 32) ∧ b = Payload.optionalLayout p ++ t.toList := by
  have hlen : t.toList.length = authTagSize := t.length_toList
  by_cases hb : authTagSize < b.length
  · rw [whole_sealing_long hb, map_eq_ok_iff]
    simp only [(selfDelimiting _).whole_eq_ok_iff, Canonical.reads_iff_writes, writes_pair,
      writes_payload, writes_block]
    constructor
    · rintro ⟨⟨q, t'⟩, ⟨_, _, rfl, ⟨hq, rfl⟩, rfl⟩, h⟩
      cases h
      exact ⟨by simpa using hq, rfl⟩
    · rintro ⟨hq, rfl⟩
      cases p with
      | none =>
        simp only [Payload.optionalLayout, List.nil_append] at hb
        omega
      | some q => exact ⟨(q, t), ⟨_, _, rfl, ⟨hq q rfl, rfl⟩, rfl⟩, rfl⟩
  · rw [whole_sealing_short hb, map_eq_ok_iff]
    simp only [(selfDelimiting _).whole_eq_ok_iff, Canonical.reads_iff_writes, writes_block]
    constructor
    · rintro ⟨t', rfl, h⟩
      cases h
      exact ⟨nofun, rfl⟩
    · rintro ⟨-, rfl⟩
      cases p with
      | none => exact ⟨t, rfl, rfl⟩
      | some q =>
        have hq := q.length_layout
        simp only [Payload.optionalLayout, List.length_append] at hb
        omega

instance : sealedReply.Appending := inferInstanceAs (iso _ _ _).Appending

theorem writes_sealedReply {s : SealedReply} {b : Bytes} : sealedReply.Writes s b ↔
    (s.reply.offer.Fits 0 ∧ ∀ p ∈ s.payload, p.ciphertext.length < 2 ^ 32) ∧ b = s.layout 0 := by
  rw [sealedReply, writes_iso]
  simp only [writes_pair, writes_reply, writes_optionalPayload, writes_block]
  constructor
  · rintro ⟨_, _, rfl, ⟨ho, rfl⟩, _, _, rfl, ⟨hp, rfl⟩, rfl⟩
    exact ⟨⟨ho, hp⟩, rfl⟩
  · rintro ⟨⟨ho, hp⟩, rfl⟩
    exact ⟨_, _, rfl, ⟨ho, rfl⟩, _, _, rfl, ⟨hp, rfl⟩, rfl⟩

theorem whole_sealedReply {s : SealedReply} {b : Bytes} : sealedReply.read.whole b = .ok s ↔
    ∃ pad, (s.reply.offer.Fits pad ∧ ∀ p ∈ s.payload, p.ciphertext.length < 2 ^ 32) ∧
      b = s.layout pad := by
  rw [sealedReply, whole_iso_eq_ok_iff]
  simp only [whole_pair_eq_ok_iff reply, reads_reply]
  constructor
  · rintro ⟨⟨r, p, t⟩, ⟨_, _, rfl, ⟨pad, ho, rfl⟩, hs⟩, rfl⟩
    obtain ⟨hp, rfl⟩ := whole_sealing.mp hs
    exact ⟨pad, ⟨ho, hp⟩, rfl⟩
  · rintro ⟨pad, ⟨ho, hp⟩, rfl⟩
    exact ⟨(s.reply, s.payload, s.authTag), ⟨_, _, rfl, ⟨pad, ho, rfl⟩,
      whole_sealing.mpr ⟨hp, rfl⟩⟩, rfl⟩

/-! ## Bodies and envelopes -/

instance : (k : Kind) → (body k).Appending
  | .identity => inferInstanceAs offer.Appending
  | .authR => inferInstanceAs reply.Appending
  | .authI => inferInstanceAs ringProof.Appending
  | .prekey => inferInstanceAs offer.Appending
  | .nonInteractiveAuth => inferInstanceAs sealedReply.Appending

theorem writes_body {k : Kind} {v : Body k} {b : Bytes} :
    (body k).Writes v b ↔ v.Fits 0 ∧ b = v.layout 0 := by
  cases k with
  | identity =>
    rw [Body.fits_iff_of_offer (o := v) rfl rfl]
    exact writes_offer
  | authR =>
    rw [Body.fits_iff_of_offer (o := Reply.offer v) rfl rfl]
    exact writes_reply
  | authI =>
    rw [Body.fits_authI, eq_self, true_and]
    exact writes_ringProof
  | prekey =>
    rw [Body.fits_iff_of_offer (o := v) rfl rfl]
    exact writes_offer
  | nonInteractiveAuth =>
    rw [Body.fits_nonInteractiveAuth]
    exact writes_sealedReply

theorem whole_body {k : Kind} {v : Body k} {b : Bytes} :
    (body k).read.whole b = .ok v ↔ ∃ pad, v.Fits pad ∧ b = v.layout pad := by
  cases k with
  | identity =>
    simp only [Body.fits_iff_of_offer (k := .identity) (o := v) rfl rfl]
    exact offer.selfDelimiting.whole_eq_ok_iff.trans reads_offer
  | authR =>
    simp only [Body.fits_iff_of_offer (k := .authR) (o := Reply.offer v) rfl rfl]
    exact reply.selfDelimiting.whole_eq_ok_iff.trans reads_reply
  | authI =>
    simp only [Body.fits_authI, exists_eq_left]
    exact (ringProof.selfDelimiting.whole_eq_ok_iff.trans Canonical.reads_iff_writes).trans
      writes_ringProof
  | prekey =>
    simp only [Body.fits_iff_of_offer (k := .prekey) (o := v) rfl rfl]
    exact offer.selfDelimiting.whole_eq_ok_iff.trans reads_offer
  | nonInteractiveAuth =>
    simp only [Body.fits_nonInteractiveAuth]
    exact whole_sealedReply

instance (k : Kind) : (envelope k).Appending := inferInstanceAs (iso _ _ _).Appending

theorem bounded_body : (k : Kind) → (body k).read.Bounded
  | .identity => offer.selfDelimiting.bounded
  | .authR => reply.selfDelimiting.bounded
  | .authI => ringProof.selfDelimiting.bounded
  | .prekey => offer.selfDelimiting.bounded
  | .nonInteractiveAuth => bounded_iso <| bounded_pair reply.selfDelimiting.bounded <|
      bounded_pair bounded_optionalPayload (selfDelimiting _).bounded

/-- No message is read beyond its input. -/
theorem bounded_envelope (k : Kind) : (envelope k).read.Bounded :=
  bounded_iso (bounded_pair (tags k).selfDelimiting.bounded (bounded_body k))

end Field

namespace Envelope

variable {k : Kind} {e : Envelope k} {b : Bytes}

def layout (pad : Nat) (e : Envelope k) : Bytes :=
  (Header.ofKind k e.sender e.receiver).toBytes ++ e.body.layout pad

theorem writes_iff : (Field.envelope k).Writes e b ↔ e.body.Fits 0 ∧ b = e.layout 0 := by
  rw [Field.envelope, Field.writes_iso]
  simp only [Field.writes_pair, Field.writes_tags, Field.writes_body]
  constructor
  · rintro ⟨_, _, rfl, rfl, hfits, rfl⟩
    exact ⟨hfits, rfl⟩
  · rintro ⟨hfits, rfl⟩
    exact ⟨_, _, rfl, rfl, hfits, rfl⟩

theorem toBytes_of_writes (h : (Field.envelope k).Writes e b) : e.toBytes = .ok b := by
  rw [toBytes, Writer.toBytes, encode, h []]
  rfl

theorem toBytes_of_fails {error : WireError} (h : (Field.envelope k).Fails e error b) :
    e.toBytes = .error error := by
  rw [toBytes, Writer.toBytes, encode, h []]

theorem toBytes_eq_ok_iff : e.toBytes = .ok b ↔ e.body.Fits 0 ∧ b = e.layout 0 := by
  rw [← writes_iff, Field.writes_iff, toBytes, Writer.toBytes, encode]
  cases (Field.envelope k).write e [] with
  | ok n buffer => simp
  | error e buffer => simp

theorem ofBytes_eq_ok_iff : ofBytes k b = .ok e ↔ ∃ pad, e.body.Fits pad ∧ b = e.layout pad := by
  rw [ofBytes, Field.envelope, Field.whole_iso_eq_ok_iff]
  simp only [Field.whole_pair_eq_ok_iff (Field.tags k), Field.Canonical.reads_iff_writes,
    Field.writes_tags, Field.whole_body]
  constructor
  · rintro ⟨⟨t, v⟩, ⟨_, _, rfl, rfl, pad, hfits, rfl⟩, rfl⟩
    exact ⟨pad, hfits, rfl⟩
  · rintro ⟨pad, hfits, rfl⟩
    exact ⟨((e.sender, e.receiver), e.body), ⟨_, _, rfl, rfl, pad, hfits, rfl⟩, rfl⟩

end Envelope

end DeniableHandshake
