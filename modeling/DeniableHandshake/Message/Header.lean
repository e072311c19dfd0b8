import DeniableHandshake.Message.Kind
import DeniableHandshake.Wire.Primitive

/-!
# Message headers

Eleven bytes in front of every message: the protocol version, the byte of the kind and the
instance tags of the sender and the receiver. A header of another version is refused whatever
follows, and the byte of the kind is looked at after the version.
-/
namespace DeniableHandshake

structure Header where
  version : UInt16
  kindByte : UInt8
  sender : UInt32
  receiver : UInt32
  deriving DecidableEq

namespace Header

abbrev size : Nat := 11

def currentVersion : UInt16 := 0x0004

def ofKind (k : Kind) (sender receiver : UInt32) : Header :=
  ⟨currentVersion, k.toByte, sender, receiver⟩

def kind? (h : Header) : Option Kind := Kind.ofByte? h.kindByte

def expectKind (h : Header) (k : Kind) : Except WireError Unit :=
  if h.kindByte = k.toByte then .ok () else .error (.unexpectedKind k.toByte h.kindByte)

def toBytes (h : Header) : Bytes :=
  toBigEndian 2 h.version.toNat ++ h.kindByte :: (toBigEndian 4 h.sender.toNat ++
    toBigEndian 4 h.receiver.toNat)

theorem length_toBytes (h : Header) : h.toBytes.length = size := by simp [toBytes, size]

def ofBlock (b : Block size) : Header :=
  ⟨.ofNat (ofBigEndian (b.toList.take 2)), .ofNat (ofBigEndian ((b.toList.drop 2).take 1)),
    .ofNat (ofBigEndian ((b.toList.drop 3).take 4)), .ofNat (ofBigEndian (b.toList.drop 7))⟩

def display (h : Header) : String :=
  "DakeHeader \x7b version: " ++ toString h.version.toNat ++ ", message_type: " ++
    Hex.code 2 h.kindByte.toNat ++ ", sender_tag: " ++ toString h.sender.toNat ++
    ", receiver_tag: " ++ toString h.receiver.toNat ++ " \x7d"

end Header

namespace Field

def header : Field Header :=
  (block "header" Header.size).refine
    (fun b =>
      let h := Header.ofBlock b
      if h.version = Header.currentVersion then .ok h else .error (.unsupportedVersion h.version))
    (fun h => ⟨h.toBytes, h.length_toBytes⟩)

/-- The tags in a header of one kind. -/
def tags (k : Kind) : Field (UInt32 × UInt32) :=
  header.refine (fun h => (h.expectKind k).map fun _ => (h.sender, h.receiver))
    (fun t => .ofKind k t.1 t.2)

end Field

end DeniableHandshake
