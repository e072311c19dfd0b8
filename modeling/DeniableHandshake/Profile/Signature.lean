import DeniableHandshake.Profile.Basic
import DeniableHandshake.Signature.Ed25519

/-!
# Signed profiles
-/
namespace DeniableHandshake.Profile

/-- The profile of the identity key of a seed, without a transitional signature. -/
def sign (seed : Block 32) (versions : String) (expires : UInt64) : Profile :=
  let key := Ed25519.publicKey seed
  ⟨key, versions, expires, Ed25519.sign seed (signedBody key versions expires), []⟩

def verifies (p : Profile) : Bool :=
  Ed25519.verify p.identityKey (signedBody p.identityKey p.versions p.expires) p.signature

end DeniableHandshake.Profile
