import DeniableHandshake.Proofs.Bytes.Endian
import DeniableHandshake.Proofs.Wire.Law
import DeniableHandshake.RingProof
import DeniableHandshake.Wire.Primitive

/-!
# Layouts of the primitive fields

Which bytes each primitive field writes for a value and from which bytes it reads it. The two agree
but for a group value, which is also read with zero bytes in front of its magnitude as long as the
declared length stays within the width of the prime.
-/
namespace DeniableHandshake

/-- A byte string after its length. -/
def lengthPrefixed (b : Bytes) : Bytes := toBigEndian Field.lengthSize b.length ++ b

theorem length_lengthPrefixed (b : Bytes) : (lengthPrefixed b).length = 4 + b.length := by
  rw [lengthPrefixed, List.length_append, length_toBigEndian]

theorem Modp3072.Value.ofBytes_eq_iff {b : Bytes} {v : Value} :
    Value.ofBytes b = v ↔ ∃ k, b = List.replicate k 0 ++ v.magnitude := by
  constructor
  · rintro rfl
    exact exists_eq_replicate_append_stripZeros b
  · rintro ⟨k, rfl⟩
    exact Value.ext (stripZeros_replicate_append k v.minimal)

namespace Field

/-! ## Numbers of a fixed width -/

section Number

variable {α : Type} {name : String} {w : Nat} {of : Nat → α} {toNat : α → Nat}

theorem writes_number {v : α} {b : Bytes} : ((block name w).iso (fun b => of (ofBigEndian b.toList))
      (fun v => .bigEndian w (toNat v))).Writes v b ↔ b = toBigEndian w (toNat v) := by
  rw [writes_iso, writes_block]
  rfl

theorem count_number {input : Bytes} {v : α} {n : Nat} (h : ((block name w).iso
      (fun b => of (ofBigEndian b.toList)) (fun v => .bigEndian w (toNat v))).read input = .ok (v, n)) :
    n = w := by
  obtain ⟨a, ha, -⟩ := read_iso_eq_ok h
  exact count_take ha

theorem canonical_number (hlt : ∀ v, toNat v < 256 ^ w) (hof : ∀ v, of (toNat v) = v)
    (hto : ∀ n < 256 ^ w, toNat (of n) = n) :
    ((block name w).iso (fun b => of (ofBigEndian b.toList))
      (fun v => .bigEndian w (toNat v))).Canonical := by
  apply Canonical.iso inferInstance
  · intro v
    change of (ofBigEndian (toBigEndian w (toNat v))) = v
    rw [ofBigEndian_toBigEndian, Nat.mod_eq_of_lt (hlt v), hof]
  · intro a
    apply Block.ext
    change toBigEndian w (toNat (of (ofBigEndian a.toList))) = a.toList
    rw [hto _ (ofBigEndian_lt_of_length a.length_toList),
      toBigEndian_ofBigEndian_of_length a.length_toList]

end Number

instance : u8.Canonical :=
  canonical_number (fun v => v.toNat_lt) (fun _ => UInt8.ofNat_toNat)
    fun _ => UInt8.toNat_ofNat_of_lt'

instance : u16.Canonical :=
  canonical_number (fun v => v.toNat_lt) (fun _ => UInt16.ofNat_toNat)
    fun _ => UInt16.toNat_ofNat_of_lt'

instance : u32.Canonical :=
  canonical_number (fun v => v.toNat_lt) (fun _ => UInt32.ofNat_toNat)
    fun _ => UInt32.toNat_ofNat_of_lt'

instance : u64.Canonical :=
  canonical_number (fun v => v.toNat_lt) (fun _ => UInt64.ofNat_toNat)
    fun _ => UInt64.toNat_ofNat_of_lt'

theorem writes_u8 {v : UInt8} {b : Bytes} : u8.Writes v b ↔ b = toBigEndian 1 v.toNat :=
  writes_number

theorem writes_u16 {v : UInt16} {b : Bytes} : u16.Writes v b ↔ b = toBigEndian 2 v.toNat :=
  writes_number

theorem writes_u32 {v : UInt32} {b : Bytes} : u32.Writes v b ↔ b = toBigEndian 4 v.toNat :=
  writes_number

theorem writes_u64 {v : UInt64} {b : Bytes} : u64.Writes v b ↔ b = toBigEndian 8 v.toNat :=
  writes_number

/-! ## Byte strings of a declared length -/

section Delimited

variable (name : String) {limit : Nat} {s b : Bytes}

theorem lengthLimit_eq : lengthLimit = 2 ^ 32 - 1 := rfl

theorem toNat_ofNat_length (hs : s.length ≤ lengthLimit) :
    (UInt32.ofNat s.length).toNat = s.length := by
  rw [lengthLimit_eq] at hs
  exact UInt32.toNat_ofNat_of_lt' (by rw [UInt32.size]; omega)

/-- The reader of what follows a length. -/
def declared (limit n : Nat) : Reader Bytes :=
  if n ≤ limit then (Reader.take name n).andThen fun b => .result b.toList
  else .verdict (.error (.tooLarge name n limit))

/-- A length counts as many bytes as are passed over to read what follows it. -/
theorem read_delimited : (delimited name limit).read =
    u32.read.andThen fun length => declared name limit length.toNat := by
  funext input
  cases hlength : u32.read input with
  | error e =>
    rw [Reader.andThen_of_error hlength]
    simp only [delimited, hlength]
    rfl
  | ok p =>
    obtain ⟨length, m⟩ := p
    obtain rfl : m = lengthSize := count_number hlength
    rw [Reader.andThen_of_ok hlength]
    simp only [delimited, hlength, declared, bind, Except.bind]
    split
    · cases htake : Reader.take name length.toNat (input.drop lengthSize) with
      | error e =>
        rw [Reader.andThen_of_error htake]
        rfl
      | ok q =>
        rw [Reader.andThen_of_ok htake]
        rfl
    · rfl

theorem selfDelimiting_declared (limit n : Nat) : (declared name limit n).SelfDelimiting := by
  rw [declared]
  split
  · exact (Reader.selfDelimiting_take name n).andThen fun _ => Reader.selfDelimiting_result _
  · exact Reader.selfDelimiting_verdict nofun

theorem reads_declared {n : Nat} :
    (declared name limit n).Reads b s ↔ n ≤ limit ∧ s.length = n ∧ b = s := by
  constructor
  · intro h
    rw [declared] at h
    split at h
    · next hn =>
      obtain ⟨a, ha, rfl⟩ := (Reader.selfDelimiting_take name n).reads_andThen_result_iff.mp h
      exact ⟨hn, a.length_toList, reads_block.mp ha⟩
    · cases h []
  · rintro ⟨hn, hlength, rfl⟩
    rw [declared, if_pos hn]
    have hread : (block name n).read.Reads b ⟨b, hlength⟩ := reads_block.mpr rfl
    exact (Reader.selfDelimiting_take name n).reads_andThen_result_iff.mpr ⟨_, hread, rfl⟩

theorem writes_delimited_of_le (hs : s.length ≤ limit) (hlimit : limit ≤ lengthLimit) :
    (delimited name limit).Writes s (lengthPrefixed s) := by
  intro buffer
  have hu := (writes_u32 (v := .ofNat s.length)).mpr rfl
  rw [toNat_ofNat_length (Nat.le_trans hs hlimit)] at hu
  simp only [delimited, if_pos hs, bind, EStateM.bind, hu buffer, Writer.put, pure, EStateM.pure,
    lengthPrefixed, List.length_append, List.append_assoc]

theorem fails_delimited (hs : ¬ s.length ≤ limit) :
    (delimited name limit).Fails s (.tooLarge name s.length limit) [] := by
  intro buffer
  rw [List.append_nil]
  simp only [delimited, if_neg hs]
  rfl

theorem lawful_delimited (hlimit : limit ≤ lengthLimit) : (delimited name limit).Lawful where
  selfDelimiting := by
    rw [read_delimited]
    exact (u32.selfDelimiting).andThen fun length => selfDelimiting_declared name limit length.toNat
  writes_or_fails s := by
    by_cases hs : s.length ≤ limit
    · exact .inl ⟨_, writes_delimited_of_le name hs hlimit⟩
    · exact .inr ⟨_, _, fails_delimited name hs⟩

theorem writes_delimited (hlimit : limit ≤ lengthLimit) :
    (delimited name limit).Writes s b ↔ s.length ≤ limit ∧ b = lengthPrefixed s := by
  constructor
  · intro h
    by_cases hs : s.length ≤ limit
    · exact ⟨hs, h.unique (writes_delimited_of_le name hs hlimit)⟩
    · exact absurd (fails_delimited name hs) h.not_fails
  · rintro ⟨hs, rfl⟩
    exact writes_delimited_of_le name hs hlimit

theorem canonical_delimited (hlimit : limit ≤ lengthLimit) : (delimited name limit).Canonical where
  toLawful := lawful_delimited name hlimit
  reads_iff_writes := by
    intro s b
    rw [writes_delimited name hlimit, read_delimited, u32.selfDelimiting.reads_andThen_iff
      fun length => selfDelimiting_declared name limit length.toNat]
    constructor
    · rintro ⟨length, b₁, b₂, rfl, h₁, h₂⟩
      obtain ⟨hle, hlen, rfl⟩ := (reads_declared name).mp h₂
      rw [writes_u32.mp (Canonical.reads_iff_writes.mp h₁), ← hlen]
      exact ⟨hlen ▸ hle, rfl⟩
    · rintro ⟨hs, rfl⟩
      have hlength := toNat_ofNat_length (Nat.le_trans hs hlimit)
      refine ⟨.ofNat s.length, _, _, rfl, ?_, ?_⟩
      · rw [Canonical.reads_iff_writes, writes_u32, hlength]
      · rw [reads_declared name, hlength]
        exact ⟨hs, rfl, rfl⟩

end Delimited

instance : data.Canonical := canonical_delimited "data" (Nat.le_refl _)

instance : curvePoint.Canonical :=
  Canonical.iso inferInstance (fun _ => rfl) fun _ => rfl

instance : ringProof.Canonical :=
  Canonical.iso inferInstance (fun _ => rfl) fun _ => rfl

instance : integer.Lawful :=
  have := lawful_delimited "mpi" (Nat.le_refl lengthLimit)
  inferInstanceAs (iso _ _ _).Lawful

instance : groupValue.Lawful :=
  have := lawful_delimited "dh public key" (show Modp3072.width ≤ lengthLimit by decide)
  inferInstanceAs (iso _ _ _).Lawful

theorem writes_delimited_lengthLimit (name : String) {s b : Bytes} :
    (delimited name lengthLimit).Writes s b ↔ s.length < 2 ^ 32 ∧ b = lengthPrefixed s := by
  rw [writes_delimited name (Nat.le_refl _), lengthLimit_eq, Nat.le_sub_one_iff_lt (by decide)]

theorem writes_data {s b : Bytes} :
    data.Writes s b ↔ s.length < 2 ^ 32 ∧ b = lengthPrefixed s :=
  writes_delimited_lengthLimit "data"

theorem writes_integer {n : Nat} {b : Bytes} :
    integer.Writes n b ↔ (magnitude n).length < 2 ^ 32 ∧ b = lengthPrefixed (magnitude n) :=
  writes_delimited_lengthLimit "mpi"

theorem writes_curvePoint {p : Curve448.Point} {b : Bytes} :
    curvePoint.Writes p b ↔ b = p.encoding.toList := by
  rw [curvePoint, writes_iso, writes_block]

theorem writes_ringProof {p : RingProof} {b : Bytes} :
    ringProof.Writes p b ↔ b = p.encoding.toList := by
  rw [ringProof, writes_iso, writes_block]

theorem writes_groupValue {v : Modp3072.Value} {b : Bytes} : groupValue.Writes v b ↔
    v.magnitude.length ≤ Modp3072.width ∧ b = lengthPrefixed v.magnitude :=
  writes_delimited _ (by decide)

theorem fails_groupValue {v : Modp3072.Value} (h : Modp3072.width < v.magnitude.length) :
    groupValue.Fails v (.tooLarge "dh public key" v.magnitude.length Modp3072.width) [] :=
  fails_delimited "dh public key" (Nat.not_le.mpr h)

/-- The limit holds for the magnitude with the zero bytes in front of it. -/
theorem reads_groupValue {v : Modp3072.Value} {b : Bytes} : groupValue.read.Reads b v ↔
    ∃ k, v.magnitude.length + k ≤ Modp3072.width ∧
      b = lengthPrefixed (List.replicate k 0 ++ v.magnitude) := by
  have hwidth : Modp3072.width ≤ lengthLimit := by decide
  have hd := canonical_delimited "dh public key" hwidth
  rw [groupValue, reads_iso]
  simp only [hd.reads_iff_writes, writes_delimited _ hwidth, Modp3072.Value.ofBytes_eq_iff]
  constructor
  · rintro ⟨s, ⟨hle, rfl⟩, k, rfl⟩
    rw [List.length_append, List.length_replicate, Nat.add_comm] at hle
    exact ⟨k, hle, rfl⟩
  · rintro ⟨k, hk, rfl⟩
    refine ⟨_, ⟨?_, rfl⟩, k, rfl⟩
    rwa [List.length_append, List.length_replicate, Nat.add_comm]

end Field

end DeniableHandshake
