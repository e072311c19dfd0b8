import DeniableHandshake.Bytes.Hex

/-!
# Why bytes are refused, or a value cannot be written
-/
namespace DeniableHandshake

inductive WireError
  /-- Fewer bytes are left than the field takes. -/
  | truncated (field : String) (expected actual : Nat)
  | unsupportedVersion (version : UInt16)
  | unexpectedKind (expected actual : UInt8)
  | unknownKind (actual : UInt8)
  | invalidKeyType (keyType : UInt16)
  | tooLarge (field : String) (size limit : Nat)
  /-- The versions of a profile are not UTF-8 text. -/
  | invalidVersions
  | trailingBytes (count : Nat)
  deriving DecidableEq

namespace WireError

/-- More input could have helped. -/
def isTruncation : WireError → Bool
  | truncated _ _ _ => true
  | _ => false

def message : WireError → String
  | truncated field expected actual =>
    s!"truncated {field}: expected {expected} bytes, got {actual}"
  | unsupportedVersion version =>
    "unsupported protocol version: " ++ Hex.code 4 version.toNat
  | unexpectedKind expected actual =>
    "unexpected message type: expected " ++ Hex.code 2 expected.toNat ++ ", got " ++
      Hex.code 2 actual.toNat
  | unknownKind actual => "unknown message type: " ++ Hex.code 2 actual.toNat
  | invalidKeyType keyType => "invalid identity key type: " ++ Hex.code 4 keyType.toNat
  | tooLarge field size limit => s!"{field} too large: {size} bytes (max {limit})"
  | invalidVersions => "profile versions are not valid UTF-8"
  | trailingBytes count => s!"{count} trailing bytes after message"

end WireError

end DeniableHandshake
