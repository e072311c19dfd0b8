import DeniableHandshake.Proofs.Modp3072.Value
import DeniableHandshake.Proofs.Wire.Cursor

/-!
# Integers and group values

A group value is an integer in a byte string that is no longer than the prime of the group. Within this width
the two fields write the same bytes and read the same numbers; beyond it the group value is refused, when it
is written for its magnitude and when it is read for the length that is declared.
-/
namespace DeniableHandshake

namespace Field

/-! ## Reading a byte string of a declared length -/

/-- The length that stands in front. -/
def declaredLength (input : Bytes) : Nat := ofBigEndian (input.take lengthSize)

/-- The bytes that follow the length, as many as it declares. -/
def declaredBytes (input : Bytes) : Bytes := (input.drop lengthSize).take (declaredLength input)

variable {input : Bytes}

theorem declaredLength_lt (input : Bytes) : declaredLength input < 2 ^ 32 :=
  Nat.lt_of_lt_of_le (ofBigEndian_lt _)
    (Nat.pow_le_pow_right (n := 256) (by decide) (List.length_take_le lengthSize input))

theorem read_u32_of_lt (h : input.length < lengthSize) :
    u32.read input = .error (.truncated "u32" lengthSize input.length) := by
  have hread : (block "u32" 4).read input = .error (.truncated "u32" 4 input.length) := take_of_lt h
  exact read_iso_of_error hread

theorem read_u32_of_le (h : lengthSize ≤ input.length) :
    u32.read input = .ok (.ofNat (declaredLength input), lengthSize) := by
  have hread : (block "u32" 4).read input = .ok (⟨input.take 4, List.length_take_of_le h⟩, 4) := take_of_le h
  rw [u32, read_iso_of_ok hread]
  rfl

section Delimited

variable {β : Type} {of : Bytes → β} {raw : β → Bytes} {name : String} {limit : Nat}

theorem read_delimited_of_le (h : lengthSize ≤ input.length) : (delimited name limit).read input =
    (fun p => (p.1, lengthSize + p.2)) <$> declared name limit (declaredLength input)
      (input.drop lengthSize) := by
  rw [read_delimited, Reader.andThen_of_ok (read_u32_of_le h),
    UInt32.toNat_ofNat_of_lt' (declaredLength_lt input)]

theorem read_iso_delimited_of_short (h : input.length < lengthSize) :
    ((delimited name limit).iso of raw).read input =
      .error (.truncated "u32" lengthSize input.length) := by
  apply read_iso_of_error
  rw [read_delimited, Reader.andThen_of_error (read_u32_of_lt h)]

/-- A length over the limit is refused whatever follows it. -/
theorem read_iso_delimited_of_over (h : lengthSize ≤ input.length) (hn : limit < declaredLength input) :
    ((delimited name limit).iso of raw).read input =
      .error (.tooLarge name (declaredLength input) limit) := by
  apply read_iso_of_error
  rw [read_delimited_of_le h, declared, if_neg (Nat.not_le.mpr hn)]
  rfl

theorem read_iso_delimited_of_cut (h : lengthSize ≤ input.length) (hn : declaredLength input ≤ limit)
    (hcut : input.length < lengthSize + declaredLength input) :
    ((delimited name limit).iso of raw).read input =
      .error (.truncated name (declaredLength input) (input.length - lengthSize)) := by
  have hrest : (input.drop lengthSize).length < declaredLength input := by
    rw [List.length_drop]
    omega
  apply read_iso_of_error
  rw [read_delimited_of_le h, declared, if_pos hn, Reader.andThen_of_error (take_of_lt hrest),
    List.length_drop]
  rfl

theorem read_iso_delimited_of_whole (hn : declaredLength input ≤ limit)
    (h : lengthSize + declaredLength input ≤ input.length) :
    ((delimited name limit).iso of raw).read input =
      .ok (of (declaredBytes input), lengthSize + declaredLength input) := by
  have hrest : declaredLength input ≤ (input.drop lengthSize).length := by
    rw [List.length_drop]
    omega
  apply read_iso_of_ok
  rw [read_delimited_of_le (by omega), declared, if_pos hn, Reader.andThen_of_ok (take_of_le hrest)]
  rfl

end Delimited

/-! ## Group values as integers -/

theorem writes_groupValue_ofNat {n : Nat} (h : n < 256 ^ Modp3072.width) :
    ∃ b, integer.Writes n b ∧ groupValue.Writes (.ofNat n) b := by
  have hlength := length_magnitude_le h
  refine ⟨_, writes_integer.mpr ⟨?_, rfl⟩, writes_groupValue.mpr ⟨hlength, rfl⟩⟩
  exact Nat.lt_of_le_of_lt hlength (by decide)

theorem fails_groupValue_ofNat {n : Nat} (h : 256 ^ Modp3072.width ≤ n) : groupValue.Fails (.ofNat n)
    (.tooLarge "dh public key" (magnitude n).length Modp3072.width) [] := by
  apply fails_groupValue
  rw [← Nat.not_le]
  exact mt length_magnitude_le_iff.mp (Nat.not_lt.mpr h)

/-- A group value holds the shortest form of its number and is written as this integer, unless the number
takes more bytes than the prime. It is read where the integer is read, as the same number from the same bytes,
unless the declared length is longer than the prime. -/
theorem groupValue_agrees_with_integer :
    (∀ m : Bytes,
      let n := ofBigEndian m
      let v := Modp3072.Value.ofBytes m
      v.magnitude = magnitude n ∧ v.toNat = n ∧ v.magnitude.head? ≠ some 0 ∧ (v.magnitude = [] ↔ n = 0) ∧
        (∀ m', v = .ofBytes m' ↔ n = ofBigEndian m') ∧ v.bits = n.size ∧ (v.isZero = true ↔ n = 0) ∧
        (n < 256 ^ Modp3072.width → ∃ b, integer.Writes n b ∧ groupValue.Writes v b) ∧
        (256 ^ Modp3072.width ≤ n →
          groupValue.Fails v (.tooLarge "dh public key" (magnitude n).length Modp3072.width) [])) ∧
    ∀ src : Bytes,
      (src.length < lengthSize →
        integer.read src = .error (.truncated "u32" lengthSize src.length) ∧
          groupValue.read src = .error (.truncated "u32" lengthSize src.length)) ∧
      (lengthSize ≤ src.length →
        let n := declaredLength src
        (Modp3072.width < n →
          groupValue.read src = .error (.tooLarge "dh public key" n Modp3072.width)) ∧
        (n ≤ Modp3072.width →
          (lengthSize + n ≤ src.length → ∃ v : Modp3072.Value,
            integer.read src = .ok (v.toNat, lengthSize + n) ∧
              groupValue.read src = .ok (v, lengthSize + n)) ∧
          (src.length < lengthSize + n →
            integer.read src = .error (.truncated "mpi" n (src.length - lengthSize)) ∧
              groupValue.read src =
                .error (.truncated "dh public key" n (src.length - lengthSize))))) := by
  constructor
  · intro m n v
    have hv : v = .ofNat n := Modp3072.Value.ofBytes_eq_ofNat m
    have hnumber : v.toNat = n := Modp3072.Value.toNat_ofBytes m
    refine ⟨congrArg Modp3072.Value.magnitude hv, hnumber, v.minimal, ?_, fun m' => ?_, ?_, ?_, ?_, ?_⟩
    · rw [hv]
      exact magnitude_eq_nil_iff
    · rw [hv, Modp3072.Value.ofBytes_eq_ofNat, Modp3072.Value.ofNat_inj]
    · rw [v.bits_eq_size, hnumber]
    · rw [hv]
      exact Modp3072.Value.isZero_ofNat_iff
    · rw [hv]
      exact writes_groupValue_ofNat
    · rw [hv]
      exact fails_groupValue_ofNat
  · intro src
    refine ⟨fun h => ⟨read_iso_delimited_of_short h, read_iso_delimited_of_short h⟩, fun h => ?_⟩
    intro n
    have hwidth : Modp3072.width ≤ lengthLimit := by decide
    refine ⟨fun hn => read_iso_delimited_of_over h hn, fun hn => ⟨fun hwhole => ?_, fun hcut => ?_⟩⟩
    · refine ⟨.ofBytes (declaredBytes src), ?_, read_iso_delimited_of_whole hn hwhole⟩
      rw [Modp3072.Value.toNat_ofBytes]
      exact read_iso_delimited_of_whole (Nat.le_trans hn hwidth) hwhole
    · have hinteger : declaredLength src ≤ lengthLimit := Nat.le_trans hn hwidth
      exact ⟨read_iso_delimited_of_cut h hinteger hcut, read_iso_delimited_of_cut h hn hcut⟩

/-- Zero bytes in front of a number are not written again, but count for a declared length. -/
theorem groupValue_agrees_with_integer_nine :
    (∃ b, integer.Writes 9 b ∧ groupValue.Writes (.ofBytes [0, 0, 9]) b) ∧
    (∃ v : Modp3072.Value, integer.read [0, 0, 0, 2, 0, 9, 5] = .ok (v.toNat, 6) ∧
      groupValue.read [0, 0, 0, 2, 0, 9, 5] = .ok (v, 6)) ∧
    groupValue.read [0, 0, 1, 0x81, 9] = .error (.tooLarge "dh public key" 385 384) := by
  obtain ⟨hwrite, hread⟩ := groupValue_agrees_with_integer
  obtain ⟨-, -, -, -, -, -, -, hwrites, -⟩ := hwrite [0, 0, 9]
  obtain ⟨-, hwithin⟩ := (hread [0, 0, 0, 2, 0, 9, 5]).2 (by decide)
  obtain ⟨hover, -⟩ := (hread [0, 0, 1, 0x81, 9]).2 (by decide)
  have hwidth : ofBigEndian [0, 0, 9] < 256 ^ Modp3072.width :=
    Nat.lt_of_lt_of_le (ofBigEndian_lt _) (Nat.pow_le_pow_right (by decide) (by decide))
  exact ⟨hwrites hwidth, (hwithin (by decide)).1 (by decide), hover (by decide)⟩

end Field

end DeniableHandshake
