import DeniableHandshake.Profile.Wire
import DeniableHandshake.RingProof

/-!
# Types of fields

The fields that can follow one another in a buffer, as data, so that a sequence of writes or reads
is a list.
-/
namespace DeniableHandshake

inductive FieldType
  | u8
  | u16
  | u32
  | u64
  | array (name : String) (n : Nat)
  | data
  | integer
  | curvePoint
  | groupValue
  | ringProof
  | profile
  deriving DecidableEq

namespace FieldType

def Value : FieldType → Type
  | u8 => UInt8
  | u16 => UInt16
  | u32 => UInt32
  | u64 => UInt64
  | array _ n => Block n
  | data => Bytes
  | integer => Nat
  | curvePoint => Curve448.Point
  | groupValue => Modp3072.Value
  | ringProof => RingProof
  | profile => Profile

def field : (t : FieldType) → Field t.Value
  | u8 => .u8
  | u16 => .u16
  | u32 => .u32
  | u64 => .u64
  | array name n => .block name n
  | data => .data
  | integer => .integer
  | curvePoint => .curvePoint
  | groupValue => .groupValue
  | ringProof => .ringProof
  | profile => .profile

end FieldType

end DeniableHandshake
