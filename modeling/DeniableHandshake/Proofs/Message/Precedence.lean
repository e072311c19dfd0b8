import DeniableHandshake.Proofs.Message.Truncation

/-!
# The header decides first

The first eleven bytes of an input decide whether its header is refused, and by which error: the
length comes before the version, the version before the kind, and the kind before the body. This
holds of the reader that follows the header and of the reader of each kind, so the readers agree on
every input.
-/
namespace DeniableHandshake

variable {b b' : Bytes}

namespace Header

/-- The version in the first two bytes of an input. -/
def versionOf (b : Bytes) : UInt16 := .ofNat (ofBigEndian (b.take 2))

/-- The third byte of an input, which names a kind. -/
def kindByteOf (b : Bytes) : UInt8 := b.getD 2 0

theorem versionOf_congr (h : b'.take size = b.take size) : versionOf b' = versionOf b := by
  have htake : b'.take 2 = b.take 2 := by
    have h₂ := congrArg (List.take 2) h
    rwa [List.take_take, List.take_take] at h₂
  rw [versionOf, htake, versionOf]

theorem kindByteOf_congr (h : b'.take size = b.take size) : kindByteOf b' = kindByteOf b := by
  have hget := congrArg (fun l : Bytes => l[2]?) h
  simp only [List.getElem?_take] at hget
  simp only [kindByteOf, List.getD_eq_getElem?_getD]
  exact congrArg (Option.getD · 0) hget

theorem eq_of_take_eq (hb : b.length < size) (h : b'.take size = b.take size) : b' = b := by
  rw [List.take_of_length_le (Nat.le_of_lt hb)] at h
  have hlen := congrArg List.length h
  rw [List.length_take] at hlen
  rwa [List.take_of_length_le (by omega)] at h

theorem version_ofBlock (a : Block size) : (ofBlock a).version = versionOf a.toList := rfl

theorem kindByte_ofBlock (a : Block size) : (ofBlock a).kindByte = kindByteOf a.toList := by
  obtain ⟨l, hl⟩ := a
  match l, hl with
  | _ :: _ :: t :: _, _ => simp [ofBlock, kindByteOf, ofBigEndian, ofLittleEndian]

end Header

namespace Field
open Header

theorem read_header_of_short (hb : b.length < size) :
    header.read b = .error (.truncated "header" size b.length) := by
  have hblock : (block "header" size).read b = .error (.truncated "header" size b.length) := take_of_lt hb
  rw [header_eq, read_refine, Reader.andThen_of_error hblock]

theorem read_header_of_long (hb : size ≤ b.length) : ∃ h : Header,
    h.version = versionOf b ∧ h.kindByte = kindByteOf b ∧
      header.read b = if h.version = currentVersion then .ok (h, size)
        else .error (.unsupportedVersion h.version) := by
  let a : Block size := ⟨b.take size, List.length_take_of_le hb⟩
  have hblock : (block "header" size).read b = .ok (a, size) := take_of_le hb
  have htake : a.toList.take size = b.take size := by
    rw [List.take_of_length_le (Nat.le_of_eq a.length_toList)]
  refine ⟨ofBlock a, ?_, ?_, ?_⟩
  · rw [version_ofBlock, versionOf_congr htake]
  · rw [kindByte_ofBlock, kindByteOf_congr htake]
  · rw [header_eq, read_refine, Reader.andThen_of_ok hblock, acceptHeader]
    split
    · rfl
    · rfl

end Field

namespace Message
open Header

theorem read_of_error {e : WireError} (hb : Field.header.read b = .error e) (D : Option Kind) :
    read D b = .error e := by
  cases D with
  | none => exact ofBytes_of_error hb
  | some k => exact map_eq_error_iff.mpr (Envelope.ofBytes_of_error hb)

theorem read_of_short (hb : b.length < size) (D : Option Kind) :
    read D b = .error (.truncated "header" size b.length) :=
  read_of_error (Field.read_header_of_short hb) D

theorem read_of_version (hb : size ≤ b.length) (hv : versionOf b ≠ currentVersion)
    (D : Option Kind) : read D b = .error (.unsupportedVersion (versionOf b)) := by
  obtain ⟨h, hversion, -, hread⟩ := Field.read_header_of_long hb
  rw [hversion, if_neg hv] at hread
  exact read_of_error hread D

section Current

variable {k : Kind} (hb : size ≤ b.length) (hv : versionOf b = currentVersion)
include hb hv

theorem exists_header_of_version :
    ∃ h : Header, h.kindByte = kindByteOf b ∧ Field.header.read b = .ok (h, size) := by
  obtain ⟨h, hversion, hkind, hread⟩ := Field.read_header_of_long hb
  rw [hversion, if_pos hv] at hread
  exact ⟨h, hkind, hread⟩

theorem read_some_of_ne (hk : kindByteOf b ≠ k.toByte) :
    read (some k) b = .error (.unexpectedKind k.toByte (kindByteOf b)) := by
  obtain ⟨h, hkind, hread⟩ := exists_header_of_version hb hv
  rw [← hkind] at hk ⊢
  exact map_eq_error_iff.mpr (Envelope.ofBytes_of_ne hread hk)

theorem read_none_of_eq (hk : kindByteOf b = k.toByte) : read none b = read (some k) b := by
  obtain ⟨h, hkind, hread⟩ := exists_header_of_version hb hv
  exact ofBytes_of_kind hread (kind?_eq_some_iff.mpr (hkind.trans hk))

theorem read_none_of_ne (hk : ∀ k : Kind, kindByteOf b ≠ k.toByte) :
    read none b = .error (.unknownKind (kindByteOf b)) := by
  obtain ⟨h, hkind, hread⟩ := exists_header_of_version hb hv
  have hnone : h.kind? = none := by
    rw [Option.eq_none_iff_forall_ne_some]
    intro k hsome
    exact hk k (hkind.symm.trans (kind?_eq_some_iff.mp hsome))
  rw [← hkind]
  exact ofBytes_of_unknown hread hnone

end Current

/-- The header is cut short, of another version, or of a kind that the reader does not take. -/
def HeaderRefused (D : Option Kind) (b : Bytes) : Prop :=
  b.length < size ∨ versionOf b ≠ currentVersion ∨
    ∀ k : Kind, kindByteOf b = k.toByte → ∃ k' ∈ D, k' ≠ k

/-- What follows a header that is refused makes no difference. -/
theorem read_congr_of_headerRefused {D : Option Kind} (hD : HeaderRefused D b)
    (h : b'.take size = b.take size) : read D b' = read D b := by
  by_cases hb : b.length < size
  · rw [eq_of_take_eq hb h]
  have hb₁ : size ≤ b.length := Nat.not_lt.mp hb
  have hb₂ : size ≤ b'.length := by
    have hlen := congrArg List.length h
    rw [List.length_take, List.length_take] at hlen
    omega
  have hversion := versionOf_congr h
  have hkind := kindByteOf_congr h
  by_cases hv : versionOf b = currentVersion
  · have hv₂ : versionOf b' = currentVersion := hversion.trans hv
    have hne := (hD.resolve_left hb).resolve_left (not_not_intro hv)
    cases D with
    | none =>
      have hk : ∀ k : Kind, kindByteOf b ≠ k.toByte := by
        intro k hk
        obtain ⟨_, hnone, -⟩ := hne k hk
        cases hnone
      rw [read_none_of_ne hb₁ hv hk, read_none_of_ne hb₂ hv₂ (hkind ▸ hk), hkind]
    | some k =>
      have hk : kindByteOf b ≠ k.toByte := by
        intro hk
        obtain ⟨_, hsome, hself⟩ := hne k hk
        exact hself (Option.some.inj hsome).symm
      rw [read_some_of_ne hb₁ hv hk, read_some_of_ne hb₂ hv₂ (hkind ▸ hk), hkind]
  · rw [read_of_version hb₁ hv, read_of_version hb₂ (hversion ▸ hv), hversion]

/-- The readers agree on every input, and a refused header is refused by the length, the version and
the kind in it, in this order. -/
theorem read_by_header (b : Bytes) :
    (∀ m, ofBytes b = .ok m ↔ Envelope.ofBytes m.kind b = .ok m.envelope) ∧
    (∀ k k' e e', Envelope.ofBytes k b = .ok e → Envelope.ofBytes k' b = .ok e' → k = k') ∧
    (b.length < size → ∀ D, read D b = .error (.truncated "header" size b.length)) ∧
    (size ≤ b.length → versionOf b ≠ currentVersion →
      ∀ D, read D b = .error (.unsupportedVersion (versionOf b))) ∧
    (size ≤ b.length → versionOf b = currentVersion →
      (∀ k, kindByteOf b = k.toByte → read none b = read (some k) b ∧
        ∀ k', k' ≠ k → read (some k') b = .error (.unexpectedKind k'.toByte (kindByteOf b))) ∧
      ((∀ k : Kind, kindByteOf b ≠ k.toByte) →
        read none b = .error (.unknownKind (kindByteOf b)) ∧
        ∀ k, read (some k) b = .error (.unexpectedKind k.toByte (kindByteOf b)))) ∧
    ∀ D b', HeaderRefused D b → b'.take size = b.take size → read D b' = read D b := by
  refine ⟨fun m => ofBytes_eq_ok_iff_envelope, ?_, fun hb => read_of_short hb,
    fun hb hv => read_of_version hb hv, fun hb hv => ⟨fun k hk => ?_, fun hk => ?_⟩,
    fun D b' hD h => read_congr_of_headerRefused hD h⟩
  · intro k k' e e' he he'
    have hm : ofBytes b = .ok ⟨k, e⟩ := ofBytes_eq_ok_iff_envelope.mpr he
    have hm' : ofBytes b = .ok ⟨k', e'⟩ := ofBytes_eq_ok_iff_envelope.mpr he'
    exact congrArg Message.kind (Except.ok.inj (hm.symm.trans hm'))
  · refine ⟨read_none_of_eq hb hv hk, fun k' hne => read_some_of_ne hb hv fun hk' => ?_⟩
    exact hne (Kind.toByte_inj.mp (hk'.symm.trans hk))
  · exact ⟨read_none_of_ne hb hv hk, fun k => read_some_of_ne hb hv (hk k)⟩

end Message

end DeniableHandshake
