/-!
# Kinds of handshake messages
-/
namespace DeniableHandshake

inductive Kind
  | identity
  | authR
  | authI
  | prekey
  | nonInteractiveAuth
  deriving DecidableEq

namespace Kind

def all : List Kind := [identity, authR, authI, prekey, nonInteractiveAuth]

def toByte : Kind → UInt8
  | identity => 0x08
  | authR => 0x91
  | authI => 0x88
  | prekey => 0x0F
  | nonInteractiveAuth => 0x8D

def ofByte? (b : UInt8) : Option Kind := all.find? (·.toByte == b)

def name : Kind → String
  | identity => "identity"
  | authR => "auth-r"
  | authI => "auth-i"
  | prekey => "prekey"
  | nonInteractiveAuth => "non-interactive-auth"

theorem ofByte?_toByte (k : Kind) : ofByte? k.toByte = some k := by cases k <;> rfl

theorem toByte_inj {k l : Kind} : k.toByte = l.toByte ↔ k = l := by cases k <;> cases l <;> decide

theorem toByte_of_ofByte? {b : UInt8} {k : Kind} (h : ofByte? b = some k) : k.toByte = b := by
  simpa using List.find?_some h

end Kind

end DeniableHandshake
