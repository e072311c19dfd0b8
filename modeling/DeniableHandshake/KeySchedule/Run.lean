import DeniableHandshake.KeySchedule.Manager

/-!
# Runs of a key manager

A run performs operations one after another; an operation that fails leaves an error in the list
of outcomes, and the run goes on from the state that the failure left behind.
-/
namespace DeniableHandshake

inductive Operation
  | generateKeys (entropy : Entropy)
  | setTheirKeys (point : Curve448.Point) (value : Modp3072.Value)
  | deriveSharedSecret
  | newRatchet (secret : Bytes)
  | nextMessageKeys (chain : Chain)
  | destroy

inductive Answer
  | done
  | sharedSecret (secret : Block sharedSecretSize)
  | messageKeys (keys : MessageKeys)
  deriving DecidableEq

abbrev Outcome := Except KeyError Answer

namespace KeyManager
variable {σ : Type}

def perform (d : Derivation σ) : Operation → Session σ Answer
  | .generateKeys entropy => (fun _ => .done) <$> generateKeys entropy
  | .setTheirKeys point value => (fun _ => .done) <$> setTheirKeys point value
  | .deriveSharedSecret => .sharedSecret <$> deriveSharedSecret d
  | .newRatchet secret => (fun _ => .done) <$> newRatchet d secret
  | .nextMessageKeys chain => .messageKeys <$> nextMessageKeys d chain
  | .destroy => (fun _ => .done) <$> destroy

def step (d : Derivation σ) (op : Operation) (s : KeyManager × σ) : Outcome × KeyManager × σ :=
  match perform d op s with
  | .ok a t => (.ok a, t)
  | .error e t => (.error e, t)

def run (d : Derivation σ) : List Operation → KeyManager × σ → List Outcome × KeyManager × σ
  | [], s => ([], s)
  | op :: ops, s =>
    let (outcome, t) := step d op s
    let (outcomes, u) := run d ops t
    (outcome :: outcomes, u)

end KeyManager

end DeniableHandshake
