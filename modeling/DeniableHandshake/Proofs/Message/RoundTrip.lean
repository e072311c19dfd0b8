import DeniableHandshake.Proofs.Message.Dispatch

/-!
# Messages that are written and read back

A message whose lengths can be declared is written, and what was written is read as this message by
the reader of its kind and by the one that follows the header. The readers of the other kinds refuse
it for its kind.
-/
namespace DeniableHandshake.Message

/-- All lengths of the message can be declared. -/
def Encodable (m : Message) : Prop := m.envelope.body.Fits 0

theorem toBytes_eq_ok_iff {m : Message} {e : Bytes} :
    m.toBytes = .ok e ↔ m.Encodable ∧ e = m.envelope.layout 0 :=
  Envelope.toBytes_eq_ok_iff

theorem ofBytes_eq_ok_iff {m : Message} {b : Bytes} :
    ofBytes b = .ok m ↔ ∃ pad, m.envelope.body.Fits pad ∧ b = m.envelope.layout pad := by
  rw [ofBytes_eq_ok_iff_envelope, Envelope.ofBytes_eq_ok_iff]

theorem ofBytes_toBytes (m : Message) (hm : m.Encodable) :
    ∃ e, m.toBytes = .ok e ∧ ofBytes e = .ok m ∧ Envelope.ofBytes m.kind e = .ok m.envelope ∧
      ∀ k, k ≠ m.kind →
        Envelope.ofBytes k e = .error (.unexpectedKind k.toByte m.kind.toByte) := by
  have hread : Envelope.ofBytes m.kind (m.envelope.layout 0) = .ok m.envelope :=
    Envelope.ofBytes_eq_ok_iff.mpr ⟨0, hm, rfl⟩
  refine ⟨m.envelope.layout 0, toBytes_eq_ok_iff.mpr ⟨hm, rfl⟩,
    ofBytes_eq_ok_iff_envelope.mpr hread, hread, fun k hk => ?_⟩
  have hheader := Envelope.read_header_of_ofBytes hread
  exact Envelope.ofBytes_of_ne hheader fun h => hk (Kind.toByte_inj.mp h).symm

/-- A sealed reply with an empty ciphertext and a short group value. -/
def sealedSample : Message :=
  ⟨.nonInteractiveAuth, 0x100, 0xFFFFFFFF,
    ⟨⟨⟨⟨.zero 32, "34", 0x6000000000, .bigEndian 64 7, [1, 2]⟩, .base, .ofBytes [0, 0, 9, 0]⟩,
      .zero⟩,
      some ⟨[], .bigEndian 24 5⟩, .bigEndian 64 11⟩⟩

theorem encodable_sealedSample : sealedSample.Encodable := by
  apply Body.fits_nonInteractiveAuth.mpr
  refine ⟨⟨⟨by decide, by decide⟩, by decide⟩, ?_⟩
  intro p hp
  cases hp
  decide

theorem ofBytes_toBytes_sealedSample : sealedSample.Encodable ∧
    ∃ e, sealedSample.toBytes = .ok e ∧ ofBytes e = .ok sealedSample ∧
      Envelope.ofBytes .nonInteractiveAuth e = .ok sealedSample.envelope ∧
      ∀ k, k ≠ .nonInteractiveAuth →
        Envelope.ofBytes k e = .error (.unexpectedKind k.toByte 0x8D) :=
  ⟨encodable_sealedSample, ofBytes_toBytes sealedSample encodable_sealedSample⟩

end DeniableHandshake.Message
