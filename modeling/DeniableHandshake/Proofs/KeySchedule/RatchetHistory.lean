import DeniableHandshake.KeySchedule.Run

/-!
# The history of a ratchet

What a run has done to the ratchet is told by the secrets of the ratchet steps since the manager was
last cleared and by how many message keys were drawn from each chain since the last of those steps.
The keys that belong to a history are given by iterating the derivation, with no manager in sight.
-/
namespace DeniableHandshake

/-- The chain key that a chain of a ratchet step starts from. -/
def Chain.usage : Chain → Usage
  | .a => .chainKeyA
  | .b => .chainKeyB

structure RatchetHistory where
  /-- The secrets of the ratchet steps, the first one first. -/
  secrets : List Bytes
  /-- How many message keys were drawn from a chain since the last ratchet step. -/
  draws : Chain → Nat

namespace RatchetHistory

def empty : RatchetHistory := ⟨[], fun _ => 0⟩

def next (h : RatchetHistory) : Operation → RatchetHistory
  | .generateKeys _ => h
  | .setTheirKeys _ _ => h
  | .deriveSharedSecret => h
  | .newRatchet secret => ⟨h.secrets ++ [secret], fun _ => 0⟩
  | .nextMessageKeys chain =>
    { h with draws := fun c => if c = chain then h.draws c + 1 else h.draws c }
  | .destroy => empty

/-- The history after more operations. -/
def after (h : RatchetHistory) (ops : List Operation) : RatchetHistory := ops.foldl next h

/-- The history of a run that starts from a new manager. -/
def of (ops : List Operation) : RatchetHistory := empty.after ops

/-- All counters are below the limit. -/
def Bounded (h : RatchetHistory) : Prop :=
  h.secrets.length < UInt32.size ∧ ∀ c, h.draws c < UInt32.size

/-- No counter reaches the limit at any time of a run. -/
def WithinLimits (ops : List Operation) : Prop := ∀ k, (of (ops.take k)).Bounded

section Keys
variable (f : Query → (n : Nat) → Block n)

/-- The input of a later ratchet step: its secret under the root key of the step before. -/
def mix (input secret : Bytes) : Bytes :=
  (f (.keyed (f (Usage.rootKey.query input) rootKeySize).toList secret) sharedSecretSize).toList

/-- The input of the last ratchet step, if there was one. The first secret is taken as it is. -/
def input : List Bytes → Option Bytes
  | [] => none
  | secret :: secrets => some (secrets.foldl (mix f) secret)

theorem input_concat (secrets : List Bytes) (secret : Bytes) :
    input f (secrets ++ [secret]) =
      some (match input f secrets with
        | none => secret
        | some x => mix f x secret) := by
  cases secrets with
  | nil => rfl
  | cons first rest =>
    simp only [List.cons_append, input, List.foldl_append, List.foldl_cons, List.foldl_nil]

variable (h : RatchetHistory)

def root : Block rootKeySize :=
  match input f h.secrets with
  | none => .zero rootKeySize
  | some x => f (Usage.rootKey.query x) rootKeySize

/-- The key that a chain has before anything is drawn from it. -/
def startKey (c : Chain) : Block chainKeySize :=
  match input f h.secrets with
  | none => .zero chainKeySize
  | some x => f (c.usage.query x) chainKeySize

variable {f h}

theorem root_of_input {x : Bytes} (hx : input f h.secrets = some x) :
    h.root f = f (Usage.rootKey.query x) rootKeySize := by
  rw [root, hx]

theorem startKey_of_input {x : Bytes} (hx : input f h.secrets = some x) (c : Chain) :
    h.startKey f c = f (c.usage.query x) chainKeySize := by
  rw [startKey, hx]

variable (f h)

/-- A chain key moves on with each draw. -/
def advance (key : Block chainKeySize) : Block chainKeySize :=
  f (Usage.nextChainKey.query key.toList) chainKeySize

def chainKey (c : Chain) : Block chainKeySize := Nat.repeat (advance f) (h.draws c) (h.startKey f c)

/-- The message keys of the next draw. -/
def messageKeys (c : Chain) : MessageKeys :=
  ⟨f (Usage.messageKey.query (h.chainKey f c).toList) messageKeySize,
    f (Usage.macKey.query (h.chainKey f c).toList) macKeySize, .ofNat (h.draws c)⟩

end Keys

/-! ### Limits -/

theorem after_concat (h : RatchetHistory) (ops : List Operation) (op : Operation) :
    h.after (ops ++ [op]) = (h.after ops).next op := by
  unfold after
  rw [List.foldl_append]
  rfl

/-- No counter is larger than a number. -/
def CountsAtMost (h : RatchetHistory) (n : Nat) : Prop := h.secrets.length ≤ n ∧ ∀ c, h.draws c ≤ n

theorem CountsAtMost.next {h : RatchetHistory} {n : Nat} (hn : h.CountsAtMost n) (op : Operation) :
    (h.next op).CountsAtMost (n + 1) := by
  obtain ⟨hsecrets, hdraws⟩ := hn
  have hkeep : h.CountsAtMost (n + 1) :=
    ⟨Nat.le_succ_of_le hsecrets, fun c => Nat.le_succ_of_le (hdraws c)⟩
  cases op with
  | generateKeys _ => exact hkeep
  | setTheirKeys _ _ => exact hkeep
  | deriveSharedSecret => exact hkeep
  | newRatchet secret =>
    refine ⟨?_, fun c => Nat.zero_le _⟩
    simp only [RatchetHistory.next, List.length_append, List.length_singleton]
    omega
  | nextMessageKeys chain =>
    refine ⟨hkeep.1, fun c => ?_⟩
    have hc := hdraws c
    simp only [RatchetHistory.next]
    split
    · omega
    · omega
  | destroy => exact ⟨Nat.zero_le _, fun c => Nat.zero_le _⟩

theorem CountsAtMost.after {h : RatchetHistory} {n : Nat} (hn : h.CountsAtMost n)
    (ops : List Operation) : (h.after ops).CountsAtMost (n + ops.length) := by
  induction ops generalizing h n with
  | nil => exact hn
  | cons op ops ih =>
    have hops := ih (hn.next op)
    rwa [Nat.add_right_comm, Nat.add_assoc] at hops

theorem countsAtMost_of (ops : List Operation) : (of ops).CountsAtMost ops.length := by
  have hempty : empty.CountsAtMost 0 := ⟨Nat.le_refl 0, fun _ => Nat.le_refl 0⟩
  have hops := hempty.after ops
  rwa [Nat.zero_add] at hops

/-- A run of fewer operations than a counter can count never reaches the limit. -/
theorem withinLimits_of_length_lt {ops : List Operation} (hops : ops.length < UInt32.size) :
    WithinLimits ops := by
  intro k
  have htake : (ops.take k).length ≤ ops.length := List.length_take_le' k ops
  obtain ⟨hsecrets, hdraws⟩ := countsAtMost_of (ops.take k)
  exact ⟨by omega, fun c => by have := hdraws c; omega⟩

end RatchetHistory

end DeniableHandshake
