import DeniableHandshake.Bytes.Endian
import DeniableHandshake.Curve448.Point
import DeniableHandshake.Modp3072.Value
import DeniableHandshake.Wire.Field

/-!
# Primitive fields

Numbers are big-endian. A byte string of variable length follows its length in four bytes, and an
integer is the byte string of its shortest form. A curve point is its 56 bytes; a group value is
an integer whose byte string is at most as long as the prime of the group.
-/
namespace DeniableHandshake.Field

def u8 : Field UInt8 :=
  (block "u8" 1).iso (fun b => .ofNat (ofBigEndian b.toList)) (fun v => .bigEndian 1 v.toNat)

def u16 : Field UInt16 :=
  (block "u16" 2).iso (fun b => .ofNat (ofBigEndian b.toList)) (fun v => .bigEndian 2 v.toNat)

def u32 : Field UInt32 :=
  (block "u32" 4).iso (fun b => .ofNat (ofBigEndian b.toList)) (fun v => .bigEndian 4 v.toNat)

def u64 : Field UInt64 :=
  (block "u64" 8).iso (fun b => .ofNat (ofBigEndian b.toList)) (fun v => .bigEndian 8 v.toNat)

/-- The bytes of a length. -/
abbrev lengthSize : Nat := 4

/-- The largest length that can be written. -/
def lengthLimit : Nat := UInt32.size - 1

/-- A byte string after its length; a declared length over the limit is refused before the string
is looked at. -/
def delimited (name : String) (limit : Nat) : Field Bytes where
  write b :=
    if b.length ≤ limit then do
      let m ← u32.write (.ofNat b.length)
      let n ← Writer.put b
      return m + n
    else throw (.tooLarge name b.length limit)
  read input := do
    let (length, _) ← u32.read input
    if length.toNat ≤ limit then
      let (b, n) ← Reader.take name length.toNat (input.drop lengthSize)
      return (b.toList, lengthSize + n)
    else .error (.tooLarge name length.toNat limit)

def data : Field Bytes := delimited "data" lengthLimit

def integer : Field Nat := (delimited "mpi" lengthLimit).iso ofBigEndian magnitude

def curvePoint : Field Curve448.Point := (block "ec point" Curve448.pointSize).iso .mk (·.encoding)

def groupValue : Field Modp3072.Value :=
  (delimited "dh public key" Modp3072.width).iso .ofBytes (·.magnitude)

end DeniableHandshake.Field
