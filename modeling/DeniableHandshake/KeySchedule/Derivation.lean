import DeniableHandshake.Hash.Shake256
import DeniableHandshake.KeyError

/-!
# Key derivation

Every derived value is the answer to a query: a secret under a one-byte tag, or a secret keyed by
another key. A derivation answers queries, may fail, and may carry a state of type `σ`, so that
failures can depend on what was asked before. It fills a block that the caller gives it, also when
it fails.
-/
namespace DeniableHandshake

inductive Query
  | tagged (tag : UInt8) (secret : Bytes)
  | keyed (key secret : Bytes)
  deriving DecidableEq

/-- The byte string that is hashed to answer a query. -/
def Query.input : Query → Bytes
  | .tagged tag secret => tag :: secret
  | .keyed key secret => key ++ secret

def Query.shake (q : Query) (n : Nat) : Block n := shake256 q.input n

/-- What a derived value is for. -/
inductive Usage
  | rootKey
  | chainKeyA
  | chainKeyB
  | braceKey
  | sharedSecret
  | messageKey
  | macKey
  | nextChainKey
  deriving DecidableEq

namespace Usage

def tag : Usage → UInt8
  | rootKey => 0x01
  | chainKeyA => 0x02
  | chainKeyB => 0x03
  | braceKey => 0x04
  | sharedSecret => 0x05
  | messageKey => 0x06
  | macKey => 0x07
  | nextChainKey => 0x08

def all : List Usage :=
  [rootKey, chainKeyA, chainKeyB, braceKey, sharedSecret, messageKey, macKey, nextChainKey]

def query (u : Usage) (secret : Bytes) : Query := .tagged u.tag secret

theorem tag_inj {u v : Usage} : u.tag = v.tag ↔ u = v := by
  cases u <;> cases v <;> decide

end Usage

/-- A failed answer: the error, and the bytes that are left in the block that was to be filled. -/
structure Refusal (n : Nat) where
  error : KeyError
  left : Block n

instance (n : Nat) : CoeOut (Refusal n) KeyError := ⟨(·.error)⟩

structure Derivation (σ : Type) where
  answer : Query → (n : Nat) → σ → Except (Refusal n) (Block n) × σ

namespace Derivation
variable {σ : Type}

/-- A derivation that never fails and depends on the query alone. -/
def ofFunction (f : Query → (n : Nat) → Block n) : Derivation σ := ⟨fun q n s => (.ok (f q n), s)⟩

def shake : Derivation σ := ofFunction Query.shake

/-- SHAKE-256 for as many queries as the state allows; without a number there is no limit. -/
def limited : Derivation (Option Nat) where
  answer q n
    | none => (.ok (q.shake n), none)
    | some 0 => (.error ⟨.derivation "injected", .zero n⟩, some 0)
    | some (k + 1) => (.ok (q.shake n), some k)

end Derivation

end DeniableHandshake
