import DeniableHandshake.Bytes.Hex
import DeniableHandshake.Wire.Field

/-!
# Ring proofs

Six scalars of 56 bytes, made and checked elsewhere and carried as one block.
-/
namespace DeniableHandshake

abbrev ringProofSize : Nat := 6 * 56

structure RingProof where
  encoding : Block ringProofSize
  deriving DecidableEq

namespace RingProof

def zero : RingProof := ⟨.zero ringProofSize⟩

def isZero (p : RingProof) : Bool := p.encoding.isZero

def display (p : RingProof) : String := Hex.abridged "RingProof" p.encoding.toList

end RingProof

def Field.ringProof : Field RingProof := (block "proof" ringProofSize).iso .mk (·.encoding)

end DeniableHandshake
