import DeniableHandshake.Proofs.Profile.Layout
import DeniableHandshake.Wire.Cursor
import DeniableHandshake.Wire.FieldType
import Mathlib.Algebra.Ring.Nat

/-!
# Sequences of reads

A cursor that reads fields of any types in any order, with failures in between, stays within its input: its
position is the number of bytes that the successful reads took. What a read takes is a matter of these bytes
alone, wherever they stand, and on an input that ends inside them it asks for more.
-/
namespace DeniableHandshake

instance : (t : FieldType) → t.field.Lawful
  | .u8 => inferInstanceAs Field.u8.Lawful
  | .u16 => inferInstanceAs Field.u16.Lawful
  | .u32 => inferInstanceAs Field.u32.Lawful
  | .u64 => inferInstanceAs Field.u64.Lawful
  | .array name n => inferInstanceAs (Field.block name n).Lawful
  | .data => inferInstanceAs Field.data.Lawful
  | .integer => inferInstanceAs Field.integer.Lawful
  | .curvePoint => inferInstanceAs Field.curvePoint.Lawful
  | .groupValue => inferInstanceAs Field.groupValue.Lawful
  | .ringProof => inferInstanceAs Field.ringProof.Lawful
  | .profile => inferInstanceAs Field.profile.Lawful

namespace Reader

variable {α : Type} {r : Reader α} {a : α}

/-- An input that ends inside the bytes of a value is too short, whatever the value. -/
theorem SelfDelimiting.isTruncation_of_cut (hr : r.SelfDelimiting) {b c : Bytes} (hc : c ≠ [])
    (h : r.Reads (b ++ c) a) : ∃ e, r b = .error e ∧ e.isTruncation = true := by
  have hwhole := hr.reads_iff.mp h
  cases hb : r b with
  | error e =>
    cases htruncation : e.isTruncation with
    | true => exact ⟨e, rfl, htruncation⟩
    | false =>
      have hlonger := hr.refuses hb htruncation c
      rw [hwhole] at hlonger
      cases hlonger
  | ok p =>
    have hlonger := hr.append hb c
    rw [hwhole] at hlonger
    have hcount : (b ++ c).length = p.2 := congrArg Prod.snd (Except.ok.inj hlonger)
    have hle := hr.bounded.count_le hb
    have hpositive := List.length_pos_iff.mpr hc
    rw [List.length_append] at hcount
    omega

end Reader

namespace Cursor

variable {α : Type} {r : Reader α} {c : Cursor} {a : α} {n : Nat}

/-- The assertion of a read can fail only for a reader that counts beyond its input. -/
theorem asserts_of_bounded (hr : r.Bounded) (c : Cursor) : c.asserts r = true := by
  rw [asserts]
  cases h : r c.remaining with
  | error e => rfl
  | ok p =>
    have hle := hr.count_le h
    rw [length_remaining] at hle
    exact decide_eq_true hle

theorem read_eq_ok_iff {c' : Cursor} : c.read r = (.ok a, c') ↔
    ∃ n, r c.remaining = .ok (a, n) ∧ c' = ⟨c.input, c.position + n⟩ := by
  cases h : r c.remaining with
  | error e =>
    rw [read_of_error h]
    constructor
    · nofun
    · rintro ⟨n, hn, -⟩
      cases hn
  | ok p =>
    rw [read_of_ok h]
    constructor
    · intro hread
      cases hread
      exact ⟨p.2, rfl, rfl⟩
    · rintro ⟨n, hn, rfl⟩
      cases hn
      rfl

/-- Readers that are joined move a cursor as they do one after the other. -/
theorem read_andThen_eq_ok_iff {β : Type} {g : α → Reader β} {v : β} {c' : Cursor} :
    c.read (r.andThen g) = (.ok v, c') ↔
      ∃ a c₁, c.read r = (.ok a, c₁) ∧ c₁.read (g a) = (.ok v, c') := by
  have hrest (m : Nat) : c.remaining.drop m = (⟨c.input, c.position + m⟩ : Cursor).remaining := by
    rw [remaining, remaining, List.drop_drop]
  simp only [read_eq_ok_iff, Reader.andThen_eq_ok_iff, hrest]
  constructor
  · rintro ⟨_, ⟨a, m, k, hr, hg, rfl⟩, rfl⟩
    exact ⟨a, _, ⟨m, hr, rfl⟩, k, hg, by rw [Nat.add_assoc]⟩
  · rintro ⟨a, _, ⟨m, hr, rfl⟩, k, hg, rfl⟩
    exact ⟨m + k, ⟨a, m, k, hr, hg, rfl⟩, by rw [Nat.add_assoc]⟩

theorem finish_eq_ok_iff (hc : c.position ≤ c.input.length) :
    c.finish = .ok () ↔ c.position = c.input.length := by
  rw [finish, remainingLength]
  split
  · next hnone => exact ⟨fun _ => by omega, fun _ => rfl⟩
  · next hsome => exact ⟨nofun, fun h => absurd (by omega) hsome⟩

/-! ### Runs -/

/-- What became of a read of a field: the value and the number of its bytes, or the reason to refuse. -/
abbrev Reading := Σ t : FieldType, Except WireError (t.Value × Nat)

/-- The number of bytes of a read that succeeded. -/
def Reading.count? (r : Reading) : Option Nat := r.2.toOption.map (·.2)

/-- Reads fields of the given types, going on after those that fail. -/
def readings : Cursor → List FieldType → List Reading
  | _, [] => []
  | c, t :: ts => ⟨t, t.field.read c.remaining⟩ :: (c.read t.field.read).2.readings ts

/-- The cursor after these reads. -/
def after : Cursor → List FieldType → Cursor
  | c, [] => c
  | c, t :: ts => (c.read t.field.read).2.after ts

def bytesRead (rs : List Reading) : Nat := (rs.filterMap Reading.count?).sum

theorem bytesRead_cons_ok {t : FieldType} (v : t.Value × Nat) (rs : List Reading) :
    bytesRead (⟨t, .ok v⟩ :: rs) = v.2 + bytesRead rs := rfl

theorem bytesRead_cons_error (t : FieldType) (e : WireError) (rs : List Reading) :
    bytesRead (⟨t, .error e⟩ :: rs) = bytesRead rs := rfl

/-- A run stays within the input, and its position is told by the bytes that were read. -/
theorem after_spec (ts : List FieldType) (hc : c.position ≤ c.input.length) :
    (c.after ts).input = c.input ∧ (c.after ts).position ≤ c.input.length ∧
      (c.after ts).position = c.position + bytesRead (c.readings ts) := by
  induction ts generalizing c with
  | nil => exact ⟨rfl, hc, rfl⟩
  | cons t ts ih =>
    rw [after, readings]
    cases ht : t.field.read c.remaining with
    | error e =>
      rw [read_of_error ht, bytesRead_cons_error]
      exact ih hc
    | ok v =>
      have hle := t.field.selfDelimiting.bounded.count_le ht
      rw [length_remaining, remainingLength] at hle
      rw [read_of_ok ht, bytesRead_cons_ok, ← Nat.add_assoc]
      exact ih (show c.position + v.2 ≤ c.input.length by omega)

/-! ### Single reads -/

/-- A read that succeeded does so at every cursor in front of the same bytes, and at a cursor with only a
part of them left it asks for more. -/
theorem read_local (hr : r.SelfDelimiting) (h : r c.remaining = .ok (a, n)) (c' : Cursor) :
    (c'.remaining.take n = c.remaining.take n →
      r c'.remaining = .ok (a, n) ∧ c'.read r = (.ok a, ⟨c'.input, c'.position + n⟩)) ∧
    (c'.remaining.length < n → c'.remaining <+: c.remaining.take n →
      ∃ field expected actual, c'.read r = (.error (.truncated field expected actual), c')) := by
  obtain ⟨hn, hreads⟩ := hr.eq_ok_iff.mp h
  have hlength : (c.remaining.take n).length = n := List.length_take_of_le hn
  constructor
  · intro hsame
    have hn' : n ≤ c'.remaining.length := by
      rw [← hlength, ← hsame, List.length_take]
      exact Nat.min_le_right _ _
    rw [← hsame] at hreads
    have hread := hr.eq_ok_iff.mpr ⟨hn', hreads⟩
    exact ⟨hread, read_of_ok hread⟩
  · rintro hshort ⟨more, hmore⟩
    have hne : more ≠ [] := by
      rintro rfl
      rw [List.append_nil] at hmore
      rw [hmore, hlength] at hshort
      exact Nat.lt_irrefl n hshort
    rw [← hmore] at hreads
    obtain ⟨e, he, htruncation⟩ := hr.isTruncation_of_cut hne hreads
    cases e with
    | truncated field expected actual => exact ⟨field, expected, actual, read_of_error he⟩
    | _ => cases htruncation

/-- In every run of reads the cursor stays within the input, so that its rest and the length of its rest are
in range and no assertion fails. It moves by what the successful reads counted and by nothing else, and each
read is bounded and local. -/
theorem run_within_input (input : Bytes) (ts : List FieldType) :
    let c := (start input).after ts
    c.input = input ∧ c.position ≤ input.length ∧ c.position + c.remainingLength = input.length ∧
      c.position = bytesRead ((start input).readings ts) ∧
      (c.finish = .ok () ↔ c.position = input.length) ∧
      ∀ t : FieldType, c.asserts t.field.read = true ∧
        (∀ e, t.field.read c.remaining = .error e → c.read t.field.read = (.error e, c)) ∧
        ∀ a n, t.field.read c.remaining = .ok (a, n) →
          n ≤ c.remainingLength ∧ c.read t.field.read = (.ok a, ⟨input, c.position + n⟩) ∧
          ∀ c' : Cursor,
            (c'.remaining.take n = c.remaining.take n →
              t.field.read c'.remaining = .ok (a, n) ∧
                c'.read t.field.read = (.ok a, ⟨c'.input, c'.position + n⟩)) ∧
            (c'.remaining.length < n → c'.remaining <+: c.remaining.take n →
              ∃ field expected actual,
                c'.read t.field.read = (.error (.truncated field expected actual), c')) := by
  intro c
  obtain ⟨hinput, hposition, hsum⟩ := after_spec (c := start input) ts (Nat.zero_le _)
  change c.input = input at hinput
  change c.position ≤ input.length at hposition
  change c.position = 0 + _ at hsum
  rw [Nat.zero_add] at hsum
  have hrest : c.remainingLength = input.length - c.position := by rw [remainingLength, hinput]
  have hfinish := finish_eq_ok_iff (c := c) (by rwa [hinput])
  rw [hinput] at hfinish
  refine ⟨hinput, hposition, by omega, hsum, hfinish, fun t => ?_⟩
  have hdelimits := t.field.selfDelimiting
  refine ⟨asserts_of_bounded hdelimits.bounded c, fun e he => read_of_error he, fun a n h => ?_⟩
  have hn := hdelimits.bounded.count_le h
  rw [length_remaining] at hn
  have hmoved := read_of_ok h
  rw [hinput] at hmoved
  exact ⟨hn, hmoved, read_local hdelimits h⟩

/-- A number, two bytes after their length, a number that is cut short, and a byte. The bytes in the middle
are read in another input as well, and an input that ends inside them is too short. -/
theorem run_within_input_sample :
    let input : Bytes := [0, 5, 0, 0, 0, 2, 7, 8, 9]
    ((start input).after [.u16, .data, .u32, .u8]).finish = .ok () ∧
    let c := (start input).after [.u16]
    c.asserts Field.data.read = true ∧ c.read Field.data.read = (.ok [7, 8], ⟨input, 8⟩) ∧
      (start [0, 0, 0, 2, 7, 8, 1]).read Field.data.read = (.ok [7, 8], ⟨[0, 0, 0, 2, 7, 8, 1], 6⟩) ∧
      ∃ field expected actual, (start [0, 0, 0, 2, 7]).read Field.data.read =
        (.error (.truncated field expected actual), start [0, 0, 0, 2, 7]) := by
  intro input
  have hend : ((start input).after [.u16, .data, .u32, .u8]).position = input.length := by decide +kernel
  obtain ⟨-, -, -, -, hfinish, -⟩ := run_within_input input [.u16, .data, .u32, .u8]
  obtain ⟨-, -, -, -, -, hreads⟩ := run_within_input input [.u16]
  obtain ⟨hasserts, -, hread⟩ := hreads .data
  obtain ⟨-, hstep, hlocal⟩ := hread [7, 8] 6 rfl
  have hsame := (hlocal (start [0, 0, 0, 2, 7, 8, 1])).1 rfl
  have hcut := (hlocal (start [0, 0, 0, 2, 7])).2 (by decide) ⟨[8], rfl⟩
  exact ⟨hfinish.mpr hend, hasserts, hstep, hsame.2, hcut⟩

end Cursor

end DeniableHandshake
