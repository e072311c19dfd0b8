import DeniableHandshake.Curve448.Point
import DeniableHandshake.Entropy

/-!
# Ephemeral key pairs on Curve448
-/
namespace DeniableHandshake.Curve448

/-- A private scalar, kept as drawn, and the public point. -/
structure Keypair where
  scalar : Block scalarSize
  point : Point
  deriving DecidableEq

namespace Keypair

def empty : Keypair := ⟨.zero scalarSize, .zero⟩

/-- No key, told by an all-zero private half. -/
def isEmpty (k : Keypair) : Bool := k.scalar.isZero

def zeroize (k : Keypair) : Keypair := ⟨k.scalar.zeroize, k.point.zeroize⟩

@[simp] theorem zeroize_eq_empty (k : Keypair) : k.zeroize = empty := by
  rw [zeroize, Block.zeroize_eq_zero, Point.zeroize_eq_zero, empty]

def generate (entropy : Entropy) : Except KeyError (Keypair × Entropy) := do
  let (scalar, rest) ← entropy.draw scalarSize
  match exchange scalar .base with
  | some u => .ok (⟨scalar, ⟨u⟩⟩, rest)
  | none => .error .invalidPoint

def shared (k : Keypair) (their : Point) : Except KeyError (Block pointSize) :=
  match exchange k.scalar their with
  | none => .error .invalidPoint
  | some u => if u.isZero then .error .lowOrderSecret else .ok u

def display (k : Keypair) : String :=
  "EcdhKeypair \x7b public: " ++ k.point.display ++ ", .. \x7d"

end Keypair

end DeniableHandshake.Curve448
