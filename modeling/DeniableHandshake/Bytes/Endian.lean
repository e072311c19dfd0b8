import DeniableHandshake.Bytes.Basic

/-!
# Natural numbers as bytes

Little-endian values are read from the front; a big-endian string is the reverse of a
little-endian one. `magnitude` is the shortest big-endian form: it has no leading zero, and
zero itself is the empty string.
-/
namespace DeniableHandshake

def ofLittleEndian : Bytes → Nat
  | [] => 0
  | d :: ds => d.toNat + 256 * ofLittleEndian ds

def ofBigEndian (b : Bytes) : Nat := ofLittleEndian b.reverse

/-- The `w` low bytes of `n`, least significant first. -/
def toLittleEndian : Nat → Nat → Bytes
  | 0, _ => []
  | w + 1, n => UInt8.ofNat n :: toLittleEndian w (n / 256)

def toBigEndian (w n : Nat) : Bytes := (toLittleEndian w n).reverse

@[simp] theorem length_toLittleEndian (w n : Nat) : (toLittleEndian w n).length = w := by
  induction w generalizing n with
  | zero => rfl
  | succ w ih => rw [toLittleEndian, List.length_cons, ih]

@[simp] theorem length_toBigEndian (w n : Nat) : (toBigEndian w n).length = w := by
  rw [toBigEndian, List.length_reverse, length_toLittleEndian]

theorem toNat_ofNat_byte (n : Nat) : (UInt8.ofNat n).toNat = n % 256 := UInt8.toNat_ofNat'

theorem toLittleEndian_ofLittleEndian (b : Bytes) :
    toLittleEndian b.length (ofLittleEndian b) = b := by
  induction b with
  | nil => rfl
  | cons d ds ih =>
    have hd : d.toNat < 256 := d.toNat_lt
    rw [ofLittleEndian, List.length_cons, toLittleEndian, Nat.add_mul_div_left _ _ (by decide),
      Nat.div_eq_of_lt hd, Nat.zero_add, ih]
    congr 1
    apply UInt8.toNat_inj.mp
    rw [toNat_ofNat_byte, Nat.add_mul_mod_self_left, Nat.mod_eq_of_lt hd]

theorem toBigEndian_ofBigEndian (b : Bytes) : toBigEndian b.length (ofBigEndian b) = b := by
  rw [toBigEndian, ofBigEndian, ← List.length_reverse, toLittleEndian_ofLittleEndian,
    List.reverse_reverse]

theorem toBigEndian_ofBigEndian_of_length {w : Nat} {b : Bytes} (h : b.length = w) :
    toBigEndian w (ofBigEndian b) = b := h ▸ toBigEndian_ofBigEndian b

def Block.littleEndian (w n : Nat) : Block w := ⟨toLittleEndian w n, length_toLittleEndian w n⟩

def Block.bigEndian (w n : Nat) : Block w := ⟨toBigEndian w n, length_toBigEndian w n⟩

/-! ## Shortest form -/

/-- The little-endian digits of `n` to base 256, without zeros at the end. -/
def byteDigits (n : Nat) : Bytes :=
  if n = 0 then [] else UInt8.ofNat n :: byteDigits (n / 256)
termination_by n

def magnitude (n : Nat) : Bytes := (byteDigits n).reverse

def stripZeros (b : Bytes) : Bytes := b.dropWhile (· == 0)

theorem byteDigits_zero : byteDigits 0 = [] := by rw [byteDigits, if_pos rfl]

theorem byteDigits_of_ne_zero {n : Nat} (h : n ≠ 0) :
    byteDigits n = UInt8.ofNat n :: byteDigits (n / 256) := by rw [byteDigits, if_neg h]

theorem byteDigits_eq_nil_iff {n : Nat} : byteDigits n = [] ↔ n = 0 := by
  by_cases h : n = 0
  · simp [h, byteDigits_zero]
  · simp [h, byteDigits_of_ne_zero h]

theorem ofLittleEndian_byteDigits (n : Nat) : ofLittleEndian (byteDigits n) = n := by
  induction n using Nat.strongRecOn with
  | ind n ih =>
    by_cases h : n = 0
    · rw [h, byteDigits_zero, ofLittleEndian]
    · rw [byteDigits_of_ne_zero h, ofLittleEndian, ih (n / 256) (by omega), toNat_ofNat_byte]
      exact Nat.mod_add_div n 256

theorem ofBigEndian_magnitude (n : Nat) : ofBigEndian (magnitude n) = n := by
  rw [ofBigEndian, magnitude, List.reverse_reverse, ofLittleEndian_byteDigits]

theorem getLast?_byteDigits_ne_zero (n : Nat) : (byteDigits n).getLast? ≠ some 0 := by
  induction n using Nat.strongRecOn with
  | ind n ih =>
    by_cases h : n = 0
    · simp [h, byteDigits_zero]
    · rw [byteDigits_of_ne_zero h]
      by_cases hq : n / 256 = 0
      · rw [hq, byteDigits_zero, List.getLast?_singleton]
        intro hn
        have hz := congrArg UInt8.toNat (Option.some.inj hn)
        rw [toNat_ofNat_byte] at hz
        simp only [UInt8.toNat_zero] at hz
        omega
      · rw [List.getLast?_cons_of_ne_nil (mt byteDigits_eq_nil_iff.mp hq)]
        exact ih (n / 256) (by omega)

theorem head?_magnitude_ne_zero (n : Nat) : (magnitude n).head? ≠ some 0 := by
  rw [magnitude, List.head?_reverse]
  exact getLast?_byteDigits_ne_zero n

theorem head?_stripZeros_ne_zero (b : Bytes) : (stripZeros b).head? ≠ some 0 := by
  induction b with
  | nil => simp [stripZeros]
  | cons d ds ih =>
    by_cases h : d = 0
    · simpa [stripZeros, h] using ih
    · simp [stripZeros, h]

theorem stripZeros_replicate_append (k : Nat) {b : Bytes} (h : b.head? ≠ some 0) :
    stripZeros (List.replicate k 0 ++ b) = b := by
  induction k with
  | zero =>
    cases b with
    | nil => rfl
    | cons d ds =>
      have hd : d ≠ 0 := fun he => h (by rw [List.head?_cons, he])
      simp [stripZeros, hd]
  | succ k ih => simpa [stripZeros, List.replicate_succ] using ih

theorem exists_eq_replicate_append_stripZeros (b : Bytes) :
    ∃ k, b = List.replicate k 0 ++ stripZeros b := by
  induction b with
  | nil => exact ⟨0, rfl⟩
  | cons d ds ih =>
    by_cases h : d = 0
    · obtain ⟨k, hk⟩ := ih
      refine ⟨k + 1, ?_⟩
      have hstrip : stripZeros (d :: ds) = stripZeros ds := by simp [stripZeros, h]
      rw [hstrip, List.replicate_succ, List.cons_append, ← hk, h]
    · exact ⟨0, by simp [stripZeros, h]⟩

end DeniableHandshake
