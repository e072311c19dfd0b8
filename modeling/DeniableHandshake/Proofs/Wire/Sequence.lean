import DeniableHandshake.Proofs.Wire.Cursor

/-!
# Sequences of writes

Values of any types that are written one after another are read back in the same order. A write appends the
layout of its value and returns its length, whatever the buffer holds, and a cursor in front of the layouts
moves over them one by one.
-/
namespace DeniableHandshake

namespace FieldType

/-- The bytes of a value. -/
def layout : (t : FieldType) → t.Value → Bytes
  | u8, (v : UInt8) => toBigEndian 1 v.toNat
  | u16, (v : UInt16) => toBigEndian 2 v.toNat
  | u32, (v : UInt32) => toBigEndian 4 v.toNat
  | u64, (v : UInt64) => toBigEndian 8 v.toNat
  | array _ _, a => Block.toList a
  | data, (b : Bytes) => lengthPrefixed b
  | integer, (n : Nat) => lengthPrefixed (magnitude n)
  | curvePoint, (p : Curve448.Point) => p.encoding.toList
  | groupValue, (v : Modp3072.Value) => lengthPrefixed v.magnitude
  | ringProof, (p : RingProof) => p.encoding.toList
  | profile, (p : Profile) => p.layout

/-- The lengths in the layout of a value can be declared. -/
def Fits : (t : FieldType) → t.Value → Prop
  | data, (b : Bytes) => b.length < 2 ^ 32
  | integer, (n : Nat) => (magnitude n).length < 2 ^ 32
  | groupValue, (v : Modp3072.Value) => v.magnitude.length ≤ Modp3072.width
  | profile, (p : Profile) => p.Encodable
  | u8, _ | u16, _ | u32, _ | u64, _ | array _ _, _ | curvePoint, _ | ringProof, _ => True

variable {b : Bytes}

theorem writes_iff (t : FieldType) {v : t.Value} : t.field.Writes v b ↔ t.Fits v ∧ b = t.layout v := by
  have unconditional {p : Prop} : p ↔ True ∧ p := (iff_of_eq (true_and p)).symm
  cases t with
  | u8 => exact Field.writes_u8.trans unconditional
  | u16 => exact Field.writes_u16.trans unconditional
  | u32 => exact Field.writes_u32.trans unconditional
  | u64 => exact Field.writes_u64.trans unconditional
  | array name n => exact Field.writes_block.trans unconditional
  | data => exact Field.writes_data
  | integer => exact Field.writes_integer
  | curvePoint => exact Field.writes_curvePoint.trans unconditional
  | groupValue => exact Field.writes_groupValue
  | ringProof => exact Field.writes_ringProof.trans unconditional
  | profile => exact Field.writes_profile

/-- Integers and group values have more forms than the one that is written. -/
theorem reads_of_writes (t : FieldType) {v : t.Value} (h : t.field.Writes v b) : t.field.read.Reads b v := by
  cases t with
  | u8 => exact Field.u8.reads_of_writes h
  | u16 => exact Field.u16.reads_of_writes h
  | u32 => exact Field.u32.reads_of_writes h
  | u64 => exact Field.u64.reads_of_writes h
  | array name n => exact (Field.block name n).reads_of_writes h
  | data => exact Field.data.reads_of_writes h
  | integer =>
    have := Field.canonical_delimited "mpi" (Nat.le_refl Field.lengthLimit)
    exact Field.reads_iso_of_writes (ofBigEndian_magnitude v) h
  | curvePoint => exact Field.curvePoint.reads_of_writes h
  | groupValue =>
    exact Field.reads_groupValue.mpr ⟨0, Field.writes_groupValue.mp h⟩
  | ringProof => exact Field.ringProof.reads_of_writes h
  | profile => exact Field.profile.reads_of_writes h

theorem reads_layout (t : FieldType) {v : t.Value} (h : t.Fits v) : t.field.read.Reads (t.layout v) v :=
  t.reads_of_writes (t.writes_iff.mpr ⟨h, rfl⟩)

end FieldType

structure TypedValue where
  type : FieldType
  value : type.Value

namespace TypedValue

def write (v : TypedValue) : Writer Nat := v.type.field.write v.value

def layout (v : TypedValue) : Bytes := v.type.layout v.value

def Fits (v : TypedValue) : Prop := v.type.Fits v.value

/-- A read that gives the value and takes its layout. -/
def reading (v : TypedValue) : Cursor.Reading := ⟨v.type, .ok (v.value, v.layout.length)⟩

variable {v : TypedValue} {vs : List TypedValue}

theorem write_eq_ok (hv : v.Fits) (buffer : Bytes) :
    v.write buffer = .ok v.layout.length (buffer ++ v.layout) :=
  v.type.writes_iff.mpr ⟨hv, rfl⟩ buffer

theorem mapM_write_eq_ok (hvs : ∀ v ∈ vs, v.Fits) (buffer : Bytes) :
    vs.mapM write buffer = .ok (vs.map (·.layout.length)) (buffer ++ vs.flatMap layout) := by
  induction vs generalizing buffer with
  | nil =>
    rw [List.flatMap_nil, List.append_nil]
    rfl
  | cons v vs ih =>
    rw [List.forall_mem_cons] at hvs
    simp only [List.mapM_cons, bind, EStateM.bind, write_eq_ok hvs.1, ih hvs.2, pure, EStateM.pure,
      List.map_cons, List.flatMap_cons, List.append_assoc]

end TypedValue

namespace Cursor

variable {c : Cursor} {v : TypedValue} {vs : List TypedValue} {rest : Bytes}

theorem remaining_advance (c : Cursor) (n : Nat) :
    (⟨c.input, c.position + n⟩ : Cursor).remaining = c.remaining.drop n := by
  rw [remaining, remaining, List.drop_drop]

theorem read_layout (hv : v.Fits) (hc : c.remaining = v.layout ++ rest) :
    v.type.field.read c.remaining = .ok (v.value, v.layout.length) ∧
      c.read v.type.field.read = (.ok v.value, ⟨c.input, c.position + v.layout.length⟩) := by
  have hread : v.type.field.read c.remaining = .ok (v.value, v.layout.length) := by
    rw [hc]
    exact v.type.reads_layout hv rest
  exact ⟨hread, read_of_ok hread⟩

/-- In front of the layouts of values, a cursor reads these values and moves to the end of the last one. -/
theorem readings_flatMap_layout (hvs : ∀ v ∈ vs, v.Fits)
    (hc : c.remaining = vs.flatMap TypedValue.layout ++ rest) :
    c.readings (vs.map (·.type)) = vs.map TypedValue.reading ∧
      c.after (vs.map (·.type)) = ⟨c.input, c.position + (vs.flatMap TypedValue.layout).length⟩ := by
  induction vs generalizing c with
  | nil => exact ⟨rfl, rfl⟩
  | cons v vs ih =>
    rw [List.forall_mem_cons] at hvs
    rw [List.flatMap_cons, List.append_assoc] at hc
    have hnext : (⟨c.input, c.position + v.layout.length⟩ : Cursor).remaining =
        vs.flatMap TypedValue.layout ++ rest := by
      rw [remaining_advance, hc, List.drop_left]
    obtain ⟨hreadings, hafter⟩ := ih hvs.2 hnext
    obtain ⟨hread, hmoved⟩ := read_layout hvs.1 hc
    rw [List.map_cons, readings, after, hmoved, hreadings, hafter, hread, List.flatMap_cons,
      List.length_append, Nat.add_assoc]
    exact ⟨rfl, rfl⟩

end Cursor

namespace TypedValue

/-- A list of values is written whatever the buffer holds, and each call returns the number of bytes that it
appends to what is there. A cursor in front of these bytes reads the same values in the same order, moves by
the count that was returned for each of them, and is at the end after the last one. -/
theorem written_reads_back (vs : List TypedValue) (hvs : ∀ v ∈ vs, v.Fits) (buffer : Bytes) :
    let written := vs.flatMap layout
    vs.mapM write buffer = .ok (vs.map (·.layout.length)) (buffer ++ written) ∧
    (∀ v ∈ vs, ∀ earlier, v.write earlier = .ok v.layout.length (earlier ++ v.layout)) ∧
    ∀ c : Cursor, c.remaining = (buffer ++ written).drop buffer.length →
      c.readings (vs.map (·.type)) = vs.map reading ∧
      (∀ front v back, vs = front ++ v :: back →
        let c' := c.after (front.map (·.type))
        c' = ⟨c.input, c.position + (front.map (·.layout.length)).sum⟩ ∧
          c'.read v.type.field.read = (.ok v.value, ⟨c.input, c'.position + v.layout.length⟩)) ∧
      (c.after (vs.map (·.type))).finish = .ok () := by
  intro written
  refine ⟨mapM_write_eq_ok hvs buffer, fun v hv => write_eq_ok (hvs v hv), fun c hc => ?_⟩
  rw [List.drop_left, ← List.append_nil written] at hc
  obtain ⟨hreadings, hafter⟩ := Cursor.readings_flatMap_layout hvs hc
  rw [List.append_nil] at hc
  refine ⟨hreadings, ?_, ?_⟩
  · rintro front v back rfl c'
    have hsplit : c.remaining = front.flatMap layout ++ (v.layout ++ back.flatMap layout) := by
      rw [hc, ← List.flatMap_cons, ← List.flatMap_append]
    have hfront (w : TypedValue) (hw : w ∈ front) : w.Fits := hvs w (List.mem_append_left _ hw)
    have hc' : c' = ⟨c.input, c.position + (front.flatMap layout).length⟩ :=
      (Cursor.readings_flatMap_layout hfront hsplit).2
    have hremaining : c'.remaining = v.layout ++ back.flatMap layout := by
      rw [hc', Cursor.remaining_advance, hsplit, List.drop_left]
    have hread := (Cursor.read_layout (hvs v (List.mem_append_right _ List.mem_cons_self)) hremaining).2
    refine ⟨by rw [hc', List.length_flatMap], ?_⟩
    rw [hread, hc']
  · have hend : (c.after (vs.map (·.type))).remainingLength = 0 := by
      rw [← Cursor.length_remaining, hafter, Cursor.remaining_advance, hc, List.drop_length, List.length_nil]
    rw [Cursor.finish, if_pos hend]

/-- Values of all types, a group value that came with zero bytes in front among them. -/
def mixedValues : List TypedValue :=
  [⟨.u8, (0xAB : UInt8)⟩, ⟨.u16, (0x0102 : UInt16)⟩, ⟨.u32, (9 : UInt32)⟩, ⟨.u64, (7 : UInt64)⟩,
    ⟨.array "nonce" 3, Block.bigEndian 3 0x010203⟩, ⟨.data, ([] : Bytes)⟩, ⟨.integer, (0x0100 : Nat)⟩,
    ⟨.curvePoint, Curve448.Point.base⟩, ⟨.groupValue, Modp3072.Value.ofBytes [0, 0, 9, 0]⟩,
    ⟨.ringProof, RingProof.zero⟩, ⟨.profile, Profile.empty⟩]

theorem fits_mixedValues : ∀ v ∈ mixedValues, v.Fits := by
  have hinteger : (magnitude 0x0100).length < 2 ^ 32 :=
    Nat.lt_of_le_of_lt (length_magnitude_le (w := 2) (by decide)) (by decide)
  have hdata : ([] : Bytes).length < 2 ^ 32 := by decide
  have hvalue : (Modp3072.Value.ofBytes [0, 0, 9, 0]).magnitude.length ≤ Modp3072.width := by decide
  have hprofile : Profile.empty.Encodable := ⟨by decide, by decide⟩
  simp only [mixedValues, List.forall_mem_cons]
  exact ⟨trivial, trivial, trivial, trivial, trivial, hdata, hinteger, trivial, hvalue, trivial, hprofile,
    nofun⟩

theorem written_reads_back_mixedValues : (∀ v ∈ mixedValues, v.Fits) ∧
    ∃ ns buffer, mixedValues.mapM write [1, 2] = .ok ns buffer ∧
      let c : Cursor := ⟨buffer, 2⟩
      c.readings (mixedValues.map (·.type)) = mixedValues.map reading ∧
        (c.after (mixedValues.map (·.type))).finish = .ok () := by
  obtain ⟨hwrite, -, hread⟩ := written_reads_back mixedValues fits_mixedValues [1, 2]
  obtain ⟨hreadings, -, hfinish⟩ := hread ⟨_, 2⟩ rfl
  exact ⟨fits_mixedValues, _, _, hwrite, hreadings, hfinish⟩

end TypedValue

end DeniableHandshake
