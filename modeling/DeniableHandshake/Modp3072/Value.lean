import DeniableHandshake.Bytes.Endian
import DeniableHandshake.Modp3072.Group

/-!
# Received and generated group values

A value is a natural number of any size, held as its shortest big-endian form; zero, the empty
string, stands for a value that is not set. `Value.isValid` decides membership in the subgroup
without the two values of order at most two.
-/
namespace DeniableHandshake.Modp3072

/-- The bytes of the prime. -/
abbrev width : Nat := 384

structure Value where
  magnitude : Bytes
  minimal : magnitude.head? ≠ some 0
  deriving DecidableEq

namespace Value

@[ext] theorem ext {v w : Value} (h : v.magnitude = w.magnitude) : v = w := by
  cases v
  cases w
  cases h
  rfl

def zero : Value := ⟨[], nofun⟩

def ofBytes (b : Bytes) : Value := ⟨stripZeros b, head?_stripZeros_ne_zero b⟩

def ofNat (n : Nat) : Value := ⟨DeniableHandshake.magnitude n, head?_magnitude_ne_zero n⟩

def toNat (v : Value) : Nat := ofBigEndian v.magnitude

def isZero (v : Value) : Bool := v.magnitude.isEmpty

/-- No bytes are left, and so the form stays the shortest. -/
def clear (v : Value) : Value := ⟨v.magnitude.zeroize, nofun⟩

@[simp] theorem clear_eq_zero (v : Value) : v.clear = zero := rfl

def bits (v : Value) : Nat :=
  match v.magnitude with
  | [] => 0
  | top :: rest => 8 * rest.length + (top.toNat.log2 + 1)

/-- From 2 to `p - 2`, and one when raised to the order of the subgroup. -/
def isValid (v : Value) : Bool :=
  decide (v.magnitude.length ≤ width) && decide (2 ≤ v.toNat) && decide (v.toNat < prime - 1) &&
    power v.toNat order == 1

def display (v : Value) : String := s!"DhPublicKey({v.bits} bits)"

end Value

end DeniableHandshake.Modp3072
