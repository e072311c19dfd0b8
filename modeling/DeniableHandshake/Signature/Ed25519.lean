import DeniableHandshake.Hash.Sha512
import DeniableHandshake.Signature.Edwards25519

/-!
# Ed25519 signatures

Signing is deterministic in a 32-byte seed. Verification recomputes the nonce point as
`[s]B - [k]A` and compares encodings. It refuses a scalar that is not below the group order, and
it allows keys of small order and keys whose encoding is not reduced.
-/
namespace DeniableHandshake.Ed25519
open Edwards25519

/-- Bits 0 to 2 and 255 cleared, bit 254 set. -/
def clamp (n : Nat) : Nat := n / 8 * 8 % (1 <<< 254) + (1 <<< 254)

def secretScalar (seed : Block 32) : Nat :=
  clamp (ofLittleEndian ((sha512 seed.toList).toList.take 32))

def nonceKey (seed : Block 32) : Bytes := (sha512 seed.toList).toList.drop 32

def publicKey (seed : Block 32) : Block 32 := (Point.times (secretScalar seed) .base).compress

def hashScalar (b : Bytes) : Nat := ofLittleEndian (sha512 b).toList % order

def challenge (nonce key : Block 32) (message : Bytes) : Nat :=
  hashScalar (nonce.toList ++ key.toList ++ message)

def sign (seed : Block 32) (message : Bytes) : Block 64 :=
  let r := hashScalar (nonceKey seed ++ message)
  let nonce := (Point.times r Point.base).compress
  let s := (r + challenge nonce (publicKey seed) message * secretScalar seed) % order
  nonce.append (.littleEndian 32 s)

def verify (key : Block 32) (message : Bytes) (signature : Block 64) : Bool :=
  let nonce := Block.fit 32 (signature.toList.take 32)
  let s := ofLittleEndian (signature.toList.drop 32)
  (Point.decompress key).any fun a =>
    decide (s < order) &&
      ((Point.times s Point.base).plus (Point.times (challenge nonce key message) a.neg)).compress ==
        nonce

end DeniableHandshake.Ed25519
