import DeniableHandshake.Curve448.Keypair
import DeniableHandshake.KeySchedule.Derivation
import DeniableHandshake.Modp3072.Keypair

/-!
# The key manager

One party's ephemeral keys, the peer's public values and the current ratchet step. A session is a
computation on a manager and the state of a derivation. An error ends a session, and what the
session wrote to the manager before stays written, so each operation draws, checks and derives
first and writes last.
-/
namespace DeniableHandshake

abbrev rootKeySize : Nat := 64

abbrev chainKeySize : Nat := 64

abbrev sharedSecretSize : Nat := 64

abbrev braceKeySize : Nat := 32

abbrev messageKeySize : Nat := 32

abbrev macKeySize : Nat := 64

/-- A chain key and the number of message keys taken from it and its predecessors. -/
structure ChainKey where
  key : Block chainKeySize
  messageId : UInt32
  deriving DecidableEq

namespace ChainKey

def zero : ChainKey := ⟨.zero chainKeySize, 0⟩

def zeroize (k : ChainKey) : ChainKey := { k with key := k.key.zeroize, messageId := 0 }

@[simp] theorem zeroize_eq_zero (k : ChainKey) : k.zeroize = zero := by
  rw [zeroize, Block.zeroize_eq_zero, zero]

end ChainKey

/-- The root key and the chains of one ratchet step. -/
structure RatchetKeys where
  root : Block rootKeySize
  chainA : ChainKey
  chainB : ChainKey
  deriving DecidableEq

namespace RatchetKeys

def zero : RatchetKeys := ⟨.zero rootKeySize, .zero, .zero⟩

def zeroize (r : RatchetKeys) : RatchetKeys :=
  { r with root := r.root.zeroize, chainA := r.chainA.zeroize, chainB := r.chainB.zeroize }

@[simp] theorem zeroize_eq_zero (r : RatchetKeys) : r.zeroize = zero := by
  rw [zeroize, Block.zeroize_eq_zero, ChainKey.zeroize_eq_zero, ChainKey.zeroize_eq_zero, zero]

def chain (r : RatchetKeys) : Chain → ChainKey
  | .a => r.chainA
  | .b => r.chainB

def setChain (r : RatchetKeys) (k : ChainKey) : Chain → RatchetKeys
  | .a => { r with chainA := k }
  | .b => { r with chainB := k }

end RatchetKeys

/-- The keys of one message and its position in its chain. -/
structure MessageKeys where
  encryption : Block messageKeySize
  mac : Block macKeySize
  messageId : UInt32
  deriving DecidableEq

structure KeyManager where
  /-- The index of the next ratchet step. -/
  index : UInt32
  current : RatchetKeys
  ourCurve : Curve448.Keypair
  ourGroup : Modp3072.Keypair
  theirPoint : Curve448.Point
  theirValue : Modp3072.Value
  brace : Block braceKeySize
  deriving DecidableEq

namespace KeyManager

def new : KeyManager := ⟨0, .zero, .empty, .empty, .zero, .zero, .zero braceKeySize⟩

/-- Each part overwritten in place. -/
def cleared (m : KeyManager) : KeyManager :=
  { m with
    index := 0
    current := m.current.zeroize
    ourCurve := m.ourCurve.zeroize
    ourGroup := m.ourGroup.zeroize
    theirPoint := m.theirPoint.zeroize
    theirValue := m.theirValue.clear
    brace := m.brace.zeroize }

/-- No part keeps anything of what it held. -/
@[simp] theorem cleared_eq_new (m : KeyManager) : m.cleared = new := by
  simp only [cleared, RatchetKeys.zeroize_eq_zero, Curve448.Keypair.zeroize_eq_empty,
    Modp3072.Keypair.zeroize_eq_empty, Curve448.Point.zeroize_eq_zero, Modp3072.Value.clear_eq_zero,
    Block.zeroize_eq_zero, new]

end KeyManager

abbrev Session (σ : Type) := EStateM KeyError (KeyManager × σ)

namespace Session
variable {σ : Type}

def manager : Session σ KeyManager := fun s => .ok s.1 s

def update (f : KeyManager → KeyManager) : Session σ Unit := fun s => .ok () (f s.1, s.2)

/-- The block to be filled is the session's own, and what a failure leaves in it is dropped. -/
def ask (d : Derivation σ) (q : Query) (n : Nat) : Session σ (Block n) := fun s =>
  match d.answer q n s.2 with
  | (.ok b, t) => .ok b (s.1, t)
  | (.error r, t) => .error r.error (s.1, t)

end Session

namespace KeyManager
open Session
variable {σ : Type}

/-- New key pairs on our side, the curve key drawn first. -/
def generateKeys (entropy : Entropy) : Session σ Unit := do
  let (curve, rest) ← ofExcept (Curve448.Keypair.generate entropy)
  let (group, _) ← ofExcept (Modp3072.Keypair.generate rest)
  update fun m => { m with ourCurve := curve, ourGroup := group }

/-- The peer's public values, which must have passed the gate. -/
def setTheirKeys (point : Curve448.Point) (value : Modp3072.Value) : Session σ Unit :=
  update fun m => { m with theirPoint := point, theirValue := value }

/-- The secret of both exchanges: the brace key comes from the group exchange, and the shared
secret from the curve exchange and the brace key. -/
def deriveSharedSecret (d : Derivation σ) : Session σ (Block sharedSecretSize) := do
  let m ← manager
  if m.ourCurve.isEmpty then throw (.missingKey .ourCurveKey)
  if m.theirPoint.isZero then throw (.missingKey .theirCurvePoint)
  if m.theirValue.isZero then throw (.missingKey .theirGroupValue)
  let curve ← ofExcept (m.ourCurve.shared m.theirPoint)
  let group ← ofExcept (m.ourGroup.shared m.theirValue)
  let brace ← ask d (Usage.braceKey.query group.toList) braceKeySize
  let secret ← ask d (Usage.sharedSecret.query (curve.toList ++ brace.toList)) sharedSecretSize
  update fun m => { m with brace := brace }
  return secret

def deriveRatchetKeys (d : Derivation σ) (input : Bytes) : Session σ RatchetKeys := do
  let root ← ask d (Usage.rootKey.query input) rootKeySize
  let chainA ← ask d (Usage.chainKeyA.query input) chainKeySize
  let chainB ← ask d (Usage.chainKeyB.query input) chainKeySize
  return ⟨root, ⟨chainA, 0⟩, ⟨chainB, 0⟩⟩

/-- The first ratchet step takes the secret as it is, each later one mixes it with the root key. -/
def newRatchet (d : Derivation σ) (secret : Bytes) : Session σ Unit := do
  let m ← manager
  if m.index.toNat + 1 = UInt32.size then throw (.derivation "ratchet index overflow")
  let input ←
    if m.index = 0 then pure secret
    else Block.toList <$> ask d (.keyed m.current.root.toList secret) sharedSecretSize
  let keys ← deriveRatchetKeys d input
  update fun m => { m with current := keys, index := m.index + 1 }

/-- The keys of the next message of a chain, whose key moves on. -/
def nextMessageKeys (d : Derivation σ) (chain : Chain) : Session σ MessageKeys := do
  let m ← manager
  let c := m.current.chain chain
  if c.messageId.toNat + 1 = UInt32.size then throw (.counterOverflow chain)
  let encryption ← ask d (Usage.messageKey.query c.key.toList) messageKeySize
  let mac ← ask d (Usage.macKey.query c.key.toList) macKeySize
  let next ← ask d (Usage.nextChainKey.query c.key.toList) chainKeySize
  update fun m => { m with current := m.current.setChain ⟨next, c.messageId + 1⟩ chain }
  return ⟨encryption, mac, c.messageId⟩

/-- Every key, value and counter cleared. -/
def destroy : Session σ Unit := update cleared

end KeyManager

end DeniableHandshake
