import DeniableHandshake.Entropy
import DeniableHandshake.Modp3072.Value

/-!
# Ephemeral key pairs in the MODP group
-/
namespace DeniableHandshake.Modp3072

abbrev exponentSize : Nat := 80

/-- A private exponent, big-endian, and the public value. -/
structure Keypair where
  exponent : Block exponentSize
  value : Value
  deriving DecidableEq

namespace Keypair

def empty : Keypair := ⟨.zero exponentSize, .zero⟩

def isEmpty (k : Keypair) : Bool := k.exponent.isZero

def zeroize (k : Keypair) : Keypair := ⟨k.exponent.zeroize, k.value.clear⟩

@[simp] theorem zeroize_eq_empty (k : Keypair) : k.zeroize = empty := by
  rw [zeroize, Block.zeroize_eq_zero, Value.clear_eq_zero, empty]

def secret (k : Keypair) : Nat := ofBigEndian k.exponent.toList

def ofExponent (x : Block exponentSize) : Keypair :=
  ⟨x, .ofNat (power generator (ofBigEndian x.toList))⟩

def generate (entropy : Entropy) : Except KeyError (Keypair × Entropy) := do
  let (x, rest) ← entropy.draw exponentSize
  .ok (ofExponent x, rest)

/-- The peer's value raised to the private exponent, padded to the width of the prime. -/
def shared (k : Keypair) (their : Value) : Except KeyError (Block width) :=
  if k.isEmpty then .error (.missingKey .ourGroupKey)
  else if their.isValid then .ok (.bigEndian width (power their.toNat k.secret))
  else .error .invalidGroupValue

def display (k : Keypair) : String :=
  "DhKeypair \x7b public: " ++ k.value.display ++ ", .. \x7d"

end Keypair

end DeniableHandshake.Modp3072
