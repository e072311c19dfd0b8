import DeniableHandshake.Message.Header
import DeniableHandshake.Proofs.Wire.Primitive

/-!
# Laws of headers

A header and its eleven bytes determine each other. A header of another version is never read, and
the tags in a header of one kind are read from what they are written as and from nothing else.
-/
namespace DeniableHandshake

namespace Header

theorem ofBlock_eq {b : Block size} {version kind sender receiver : Bytes}
    (hb : b.toList = version ++ (kind ++ (sender ++ receiver))) (hversion : version.length = 2)
    (hkind : kind.length = 1) (hsender : sender.length = 4) :
    ofBlock b = ⟨.ofNat (ofBigEndian version), .ofNat (ofBigEndian kind),
      .ofNat (ofBigEndian sender), .ofNat (ofBigEndian receiver)⟩ := by
  have h₂ : b.toList.drop 2 = kind ++ (sender ++ receiver) := by
    rw [hb, List.drop_left' hversion]
  have h₃ : b.toList.drop 3 = sender ++ receiver := by
    rw [show 3 = 2 + 1 from rfl, ← List.drop_drop, h₂, List.drop_left' hkind]
  have h₇ : b.toList.drop 7 = receiver := by
    rw [show 7 = 3 + 4 from rfl, ← List.drop_drop, h₃, List.drop_left' hsender]
  rw [ofBlock, h₂, h₃, h₇, hb, List.take_left' hversion, List.take_left' hkind,
    List.take_left' hsender]

theorem toBytes_eq (h : Header) : h.toBytes = toBigEndian 2 h.version.toNat ++
    (toBigEndian 1 h.kindByte.toNat ++
      (toBigEndian 4 h.sender.toNat ++ toBigEndian 4 h.receiver.toNat)) := by
  have hkind : toBigEndian 1 h.kindByte.toNat = [h.kindByte] := by
    simp [toBigEndian, toLittleEndian]
  rw [toBytes, hkind]
  rfl

theorem ofBlock_toBytes (h : Header) : ofBlock ⟨h.toBytes, h.length_toBytes⟩ = h := by
  rw [ofBlock_eq h.toBytes_eq (length_toBigEndian ..) (length_toBigEndian ..)
    (length_toBigEndian ..)]
  have hversion : h.version.toNat % 256 ^ 2 = h.version.toNat := Nat.mod_eq_of_lt h.version.toNat_lt
  have hkind : h.kindByte.toNat % 256 ^ 1 = h.kindByte.toNat := Nat.mod_eq_of_lt h.kindByte.toNat_lt
  have hsender : h.sender.toNat % 256 ^ 4 = h.sender.toNat := Nat.mod_eq_of_lt h.sender.toNat_lt
  have hreceiver : h.receiver.toNat % 256 ^ 4 = h.receiver.toNat :=
    Nat.mod_eq_of_lt h.receiver.toNat_lt
  simp only [ofBigEndian_toBigEndian, hversion, hkind, hsender, hreceiver, UInt16.ofNat_toNat,
    UInt8.ofNat_toNat, UInt32.ofNat_toNat]

theorem toBytes_ofBlock (b : Block size) : (ofBlock b).toBytes = b.toList := by
  obtain ⟨version, kind, sender, receiver, hb, hversion, hkind, hsender, hreceiver⟩ :
      ∃ version kind sender receiver : Bytes,
        b.toList = version ++ (kind ++ (sender ++ receiver)) ∧ version.length = 2 ∧
          kind.length = 1 ∧ sender.length = 4 ∧ receiver.length = 4 := by
    have hlen : b.toList.length = 11 := b.length_toList
    refine ⟨b.toList.take 2, (b.toList.drop 2).take 1, ((b.toList.drop 2).drop 1).take 4,
      ((b.toList.drop 2).drop 1).drop 4, ?_, ?_, ?_, ?_, ?_⟩
    · simp only [List.take_append_drop]
    all_goals
      simp only [List.length_take, List.length_drop]
      omega
  rw [ofBlock_eq hb hversion hkind hsender, toBytes_eq, hb]
  simp only [UInt16.toNat_ofNat_of_lt' (ofBigEndian_lt_of_length hversion),
    UInt8.toNat_ofNat_of_lt' (ofBigEndian_lt_of_length hkind),
    UInt32.toNat_ofNat_of_lt' (ofBigEndian_lt_of_length hsender),
    UInt32.toNat_ofNat_of_lt' (ofBigEndian_lt_of_length hreceiver)]
  rw [toBigEndian_ofBigEndian_of_length hversion, toBigEndian_ofBigEndian_of_length hkind,
    toBigEndian_ofBigEndian_of_length hsender, toBigEndian_ofBigEndian_of_length hreceiver]

/-- The tags of a header of one kind. -/
def tagsOf (k : Kind) (h : Header) : Except WireError (UInt32 × UInt32) :=
  (h.expectKind k).map fun _ => (h.sender, h.receiver)

theorem tagsOf_of_eq {k : Kind} {h : Header} (hk : h.kindByte = k.toByte) :
    h.tagsOf k = .ok (h.sender, h.receiver) := by
  rw [tagsOf, expectKind, if_pos hk]
  rfl

theorem tagsOf_of_ne {k : Kind} {h : Header} (hk : h.kindByte ≠ k.toByte) :
    h.tagsOf k = .error (.unexpectedKind k.toByte h.kindByte) := by
  rw [tagsOf, expectKind, if_neg hk]
  rfl

end Header

namespace Field

/-- The header in a block, which has to be of the current version. -/
def acceptHeader (b : Block Header.size) : Except WireError Header :=
  if (Header.ofBlock b).version = Header.currentVersion then .ok (Header.ofBlock b)
  else .error (.unsupportedVersion (Header.ofBlock b).version)

theorem header_eq : header = (block "header" Header.size).refine acceptHeader
    (fun h => ⟨h.toBytes, h.length_toBytes⟩) := rfl

theorem tags_eq (k : Kind) : tags k = header.refine (Header.tagsOf k)
    (fun t => .ofKind k t.1 t.2) := rfl

theorem acceptHeader_ne_trailing (b : Block Header.size) (n : Nat) :
    acceptHeader b ≠ .error (.trailingBytes n) := by
  rw [acceptHeader]
  split <;> exact nofun

theorem tagsOf_ne_trailing (k : Kind) (h : Header) (n : Nat) :
    h.tagsOf k ≠ .error (.trailingBytes n) := by
  by_cases hk : h.kindByte = k.toByte
  · rw [Header.tagsOf_of_eq hk]
    exact nofun
  · rw [Header.tagsOf_of_ne hk]
    exact nofun

instance : header.Lawful := Lawful.refine inferInstance acceptHeader_ne_trailing

theorem reads_header {h : Header} {b : Bytes} :
    header.read.Reads b h ↔ h.version = Header.currentVersion ∧ b = h.toBytes := by
  rw [header_eq, reads_refine inferInstance acceptHeader_ne_trailing]
  constructor
  · rintro ⟨a, ha, hacc⟩
    rw [acceptHeader] at hacc
    split at hacc
    · next hversion =>
      cases hacc
      rw [Header.toBytes_ofBlock]
      exact ⟨hversion, reads_block.mp ha⟩
    · cases hacc
  · rintro ⟨hversion, rfl⟩
    refine ⟨⟨h.toBytes, h.length_toBytes⟩, reads_block.mpr rfl, ?_⟩
    rw [acceptHeader, Header.ofBlock_toBytes, if_pos hversion]

theorem writes_tags {k : Kind} {t : UInt32 × UInt32} {b : Bytes} :
    (tags k).Writes t b ↔ b = (Header.ofKind k t.1 t.2).toBytes := by
  rw [tags_eq, writes_refine, header_eq, writes_refine, writes_block]

instance (k : Kind) : (tags k).Canonical where
  toLawful := Lawful.refine inferInstance (tagsOf_ne_trailing k)
  reads_iff_writes := by
    intro t b
    rw [writes_tags, tags_eq, reads_refine inferInstance (tagsOf_ne_trailing k)]
    constructor
    · rintro ⟨h, hread, hacc⟩
      obtain ⟨hversion, rfl⟩ := reads_header.mp hread
      by_cases hk : h.kindByte = k.toByte
      · cases (Header.tagsOf_of_eq hk).symm.trans hacc
        rw [Header.ofKind, ← hk, ← hversion]
      · cases (Header.tagsOf_of_ne hk).symm.trans hacc
    · rintro rfl
      exact ⟨Header.ofKind k t.1 t.2, reads_header.mpr ⟨rfl, rfl⟩, Header.tagsOf_of_eq rfl⟩

end Field

end DeniableHandshake
