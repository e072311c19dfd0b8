import DeniableHandshake.Bytes.Endian

/-!
# Identity profiles

A profile binds an identity key to the protocol versions that its owner supports, one character
each, and to an expiry time in seconds. The transitional signature is for older peers and is
covered by nothing.
-/
namespace DeniableHandshake

def utf8 (s : String) : Bytes := s.toUTF8.data.toList

def ofUtf8? (b : Bytes) : Option String := String.fromUTF8? b.toByteArray

theorem ofUtf8?_utf8 (s : String) : ofUtf8? (utf8 s) = some s := by
  have hb : (utf8 s).toByteArray = s.toUTF8 := by
    apply ByteArray.ext
    simp [utf8]
  rw [ofUtf8?, hb, String.fromUTF8?]
  simp [String.fromUTF8, String.isValidUTF8]

theorem utf8_of_ofUtf8? {b : Bytes} {s : String} (h : ofUtf8? b = some s) : utf8 s = b := by
  rw [ofUtf8?, String.fromUTF8?] at h
  split at h
  · cases h
    simp [utf8, String.fromUTF8]
  · cases h

abbrev identityKeySize : Nat := 32

abbrev signatureSize : Nat := 64

structure Profile where
  identityKey : Block identityKeySize
  versions : String
  expires : UInt64
  signature : Block signatureSize
  transitional : Bytes
  deriving DecidableEq

namespace Profile

def ed25519KeyType : UInt16 := 0x0020

/-- Another kind of identity key, which no profile here carries. -/
def ed448KeyType : UInt16 := 0x0010

def acceptedVersions : List Char := ['3', '4']

def empty : Profile := ⟨.zero identityKeySize, "", 0, .zero signatureSize, []⟩

/-- A profile expires at the moment it names. -/
def isExpired (p : Profile) (now : UInt64) : Bool := decide (p.expires ≤ now)

def versionsAccepted (p : Profile) : Bool := p.versions.toList.all (· ∈ acceptedVersions)

/-- The number of bytes on the wire. -/
def size (p : Profile) : Nat :=
  2 + identityKeySize + (4 + (utf8 p.versions).length) + 8 + signatureSize +
    (4 + p.transitional.length)

/-- The versions are emptied like any string that owns its bytes. -/
def destroy (p : Profile) : Profile :=
  { p with
    identityKey := p.identityKey.zeroize
    versions := ""
    expires := 0
    signature := p.signature.zeroize
    transitional := p.transitional.zeroize }

@[simp] theorem destroy_eq_empty (p : Profile) : p.destroy = empty := by
  rw [destroy, Block.zeroize_eq_zero, Block.zeroize_eq_zero, Bytes.zeroize, empty]

/-- The bytes under the signature: key type, key, versions after their length, and expiry. -/
def signedBody (identityKey : Block identityKeySize) (versions : String) (expires : UInt64) : Bytes :=
  toBigEndian 2 ed25519KeyType.toNat ++ identityKey.toList ++
    toBigEndian 4 (utf8 versions).length ++ utf8 versions ++ toBigEndian 8 expires.toNat

end Profile

end DeniableHandshake
