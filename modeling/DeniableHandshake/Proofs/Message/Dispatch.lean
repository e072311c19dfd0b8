import DeniableHandshake.Proofs.Message.Layout

/-!
# Reading by the kind in the header

The header decides before anything else is read: every reader refuses a bad header alike, a reader
of one kind refuses the headers of all others, and a message is read as the kind that its header
names.
-/
namespace DeniableHandshake

variable {b : Bytes} {h : Header} {e : WireError} {k : Kind} {n : Nat}

theorem Header.kind?_eq_some_iff : h.kind? = some k ↔ h.kindByte = k.toByte := by
  constructor
  · intro hk
    exact (Kind.toByte_of_ofByte? hk).symm
  · intro hk
    rw [kind?, hk, Kind.ofByte?_toByte]

namespace Field

theorem read_tags_of_error (hb : header.read b = .error e) : (tags k).read b = .error e := by
  rw [tags_eq, read_refine, Reader.andThen_of_error hb]

theorem read_tags_of_ok (hb : header.read b = .ok (h, n)) :
    (tags k).read b = (·, n) <$> h.tagsOf k := by
  rw [tags_eq, read_refine, Reader.andThen_of_ok hb]
  cases h.tagsOf k <;> rfl

end Field

namespace Envelope

theorem ofBytes_eq (k : Kind) (b : Bytes) : ofBytes k b =
    (fun p => ⟨p.1.1, p.1.2, p.2⟩) <$> ((Field.tags k).pair (Field.body k)).read.whole b :=
  Field.whole_iso _ _ _ b

theorem ofBytes_of_error (hb : Field.header.read b = .error e) : ofBytes k b = .error e := by
  rw [ofBytes_eq, map_eq_error_iff]
  exact Field.whole_pair_of_error (Field.read_tags_of_error hb) _

theorem ofBytes_of_ne (hb : Field.header.read b = .ok (h, n)) (hk : h.kindByte ≠ k.toByte) :
    ofBytes k b = .error (.unexpectedKind k.toByte h.kindByte) := by
  rw [ofBytes_eq, map_eq_error_iff]
  apply Field.whole_pair_of_error
  rw [Field.read_tags_of_ok hb, Header.tagsOf_of_ne hk]
  rfl

/-- An envelope that was read has a header of its kind in front. -/
theorem read_header_of_ofBytes {v : Envelope k} (hv : ofBytes k b = .ok v) :
    Field.header.read b = .ok (Header.ofKind k v.sender v.receiver, Header.size) := by
  obtain ⟨pad, -, rfl⟩ := ofBytes_eq_ok_iff.mp hv
  have hread : Field.header.read (v.layout pad) =
      .ok (Header.ofKind k v.sender v.receiver, (Header.ofKind k v.sender v.receiver).toBytes.length) :=
    Field.reads_header.mpr ⟨rfl, rfl⟩ _
  rwa [Header.length_toBytes] at hread

end Envelope

namespace Message

theorem ofBytes_of_error (hb : Field.header.read b = .error e) : ofBytes b = .error e := by
  rw [ofBytes, hb]
  rfl

theorem ofBytes_of_unknown (hb : Field.header.read b = .ok (h, n)) (hk : h.kind? = none) :
    ofBytes b = .error (.unknownKind h.kindByte) := by
  unfold ofBytes
  simp only [hb, bind, Except.bind, hk]

theorem ofBytes_of_kind (hb : Field.header.read b = .ok (h, n)) (hk : h.kind? = some k) :
    ofBytes b = Message.mk k <$> Envelope.ofBytes k b := by
  unfold ofBytes
  simp only [hb, bind, Except.bind, hk]
  cases Envelope.ofBytes k b <;> rfl

theorem ofBytes_eq_ok_iff_envelope {m : Message} :
    ofBytes b = .ok m ↔ Envelope.ofBytes m.kind b = .ok m.envelope := by
  constructor
  · intro hm
    cases hb : Field.header.read b with
    | error e =>
      rw [ofBytes_of_error hb] at hm
      cases hm
    | ok p =>
      cases hk : p.1.kind? with
      | none =>
        rw [ofBytes_of_unknown hb hk] at hm
        cases hm
      | some k =>
        rw [ofBytes_of_kind hb hk] at hm
        obtain ⟨v, hv, rfl⟩ := map_eq_ok_iff.mp hm
        exact hv
  · intro hv
    rw [ofBytes_of_kind (Envelope.read_header_of_ofBytes hv) (Header.kind?_eq_some_iff.mpr rfl), hv]
    rfl

end Message

end DeniableHandshake
