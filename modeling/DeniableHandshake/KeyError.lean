/-!
# Failures of key generation, key agreement and key derivation
-/
namespace DeniableHandshake

/-- Key material that an agreement needs and that can be absent. -/
inductive KeyName
  | ourCurveKey
  | theirCurvePoint
  | ourGroupKey
  | theirGroupValue
  deriving DecidableEq

def KeyName.text : KeyName → String
  | .ourCurveKey => "our_ecdh"
  | .theirCurvePoint => "their_ecdh"
  | .ourGroupKey => "our_dh"
  | .theirGroupValue => "their_dh"

/-- The two chains of a ratchet step. -/
inductive Chain
  | a
  | b
  deriving DecidableEq

def Chain.text : Chain → String
  | .a => "a"
  | .b => "b"

inductive KeyError
  | entropy (reason : String)
  | invalidPoint
  | invalidGroupValue
  | lowOrderSecret
  | missingKey (name : KeyName)
  | derivation (reason : String)
  | counterOverflow (chain : Chain)
  deriving DecidableEq

namespace KeyError

def isDerivationFailure : KeyError → Bool
  | derivation _ => true
  | _ => false

def message : KeyError → String
  | entropy reason => s!"entropy source failed: {reason}"
  | invalidPoint => "invalid curve448 key material"
  | invalidGroupValue => "finite-field value is not a member of the 3072-bit subgroup"
  | lowOrderSecret => "diffie-hellman produced a low-order shared secret"
  | missingKey name => s!"missing key material: {name.text}"
  | derivation reason => s!"key derivation failed: {reason}"
  | counterOverflow chain => s!"message counter overflow on chain {chain.text}"

end KeyError

end DeniableHandshake
