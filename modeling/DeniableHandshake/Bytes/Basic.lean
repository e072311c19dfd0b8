/-!
# Byte strings

`Bytes` has any length, `Block n` has exactly `n` bytes. Fixed-size wire fields, keys and hash
outputs are blocks, so a length can never be wrong where a block is expected.
-/
namespace DeniableHandshake

abbrev Bytes := List UInt8

/-- A string that owns its bytes is emptied once they are overwritten. -/
def Bytes.zeroize (_ : Bytes) : Bytes := []

structure Block (n : Nat) where
  toList : Bytes
  length_toList : toList.length = n
  deriving DecidableEq

namespace Block
variable {m n : Nat}

@[ext] theorem ext {a b : Block n} (h : a.toList = b.toList) : a = b := by
  cases a
  cases b
  cases h
  rfl

theorem toList_inj {a b : Block n} : a.toList = b.toList ↔ a = b := ⟨ext, congrArg toList⟩

def ofList? (n : Nat) (b : Bytes) : Option (Block n) :=
  if h : b.length = n then some ⟨b, h⟩ else none

def zero (n : Nat) : Block n := ⟨List.replicate n 0, List.length_replicate⟩

def isZero (a : Block n) : Bool := a.toList.all (· == 0)

theorem isZero_iff {a : Block n} : a.isZero = true ↔ a = zero n := by
  rw [isZero, List.all_eq_true]
  constructor
  · intro h
    apply ext
    rw [zero, List.eq_replicate_iff]
    exact ⟨a.length_toList, fun d hd => by simpa using h d hd⟩
  · rintro rfl d hd
    simpa using (List.mem_replicate.mp hd).2

/-- Every byte overwritten with zero. -/
def zeroize (a : Block n) : Block n :=
  ⟨a.toList.map fun _ => 0, by rw [List.length_map, a.length_toList]⟩

@[simp] theorem zeroize_eq_zero (a : Block n) : a.zeroize = zero n := by
  apply ext
  change a.toList.map (fun _ => 0) = List.replicate n 0
  rw [List.map_const', a.length_toList]

/-- The bytes cut after the first `n`, or filled up with zeros at the end. -/
def fit (n : Nat) (b : Bytes) : Block n :=
  ⟨b.take n ++ List.replicate (n - b.length) 0, by simp; omega⟩

theorem fit_toList (a : Block n) : fit n a.toList = a := by
  apply ext
  simp [fit, a.length_toList, List.take_of_length_le]

def append (a : Block m) (b : Block n) : Block (m + n) :=
  ⟨a.toList ++ b.toList, by rw [List.length_append, a.length_toList, b.length_toList]⟩

end Block

end DeniableHandshake
