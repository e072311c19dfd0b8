import DeniableHandshake.Bytes.Endian
import DeniableHandshake.Bytes.Hex
import DeniableHandshake.Curve448.Ladder

/-!
# Encoded points of Curve448

A point travels as 56 little-endian bytes of its `u`-coordinate. Any 56 bytes are a `Point`;
`Point.isValid` decides whether they name a point of the curve that a peer may send, and
`exchange` is the X448 function.
-/
namespace DeniableHandshake.Curve448

abbrev pointSize : Nat := 56

abbrev scalarSize : Nat := 56

structure Point where
  encoding : Block pointSize
  deriving DecidableEq

namespace Point

def zero : Point := ⟨.zero pointSize⟩

def ofCoordinate (u : Nat) : Point := ⟨.littleEndian pointSize u⟩

def base : Point := ofCoordinate 5

def coordinate (p : Point) : Nat := ofLittleEndian p.encoding.toList

def isZero (p : Point) : Bool := p.encoding.isZero

def zeroize (p : Point) : Point := ⟨p.encoding.zeroize⟩

@[simp] theorem zeroize_eq_zero (p : Point) : p.zeroize = zero := by rw [zeroize, Block.zeroize_eq_zero, zero]

/-- The reduced encodings of the coordinates of small order, which the exchange refuses. -/
def isRefused (p : Point) : Bool :=
  p == ofCoordinate 0 || p == ofCoordinate 1 || p == ofCoordinate (prime - 1)

/-- The right-hand side of the curve equation. -/
def curveValue (u : Nat) : Nat := (u * u % prime * u + coefficient * (u * u % prime) + u) % prime

/-- A reduced coordinate, not of small order, at which the curve equation has a solution by Euler's
criterion, and which the exchange takes. -/
def isValid (p : Point) : Bool :=
  let u := p.coordinate
  decide (u < prime) && u != 0 && u != 1 && u != prime - 1 &&
    modPow (curveValue u) ((prime - 1) / 2) prime == 1 && !p.isRefused

def display (p : Point) : String := Hex.abridged "EcPoint" p.encoding.toList

end Point

/-- Bits 0 and 1 cleared, bit 447 set. -/
def clamp (k : Nat) : Nat := k / 4 * 4 % (1 <<< 447) + (1 <<< 447)

/-- X448 of a private scalar, taken as drawn and clamped here, and a point. -/
def exchange (scalar : Block scalarSize) (p : Point) : Option (Block pointSize) :=
  if p.isRefused then none
  else
    let k := clamp (ofLittleEndian scalar.toList)
    some (.littleEndian pointSize (ladder k (p.coordinate % prime)))

end DeniableHandshake.Curve448
