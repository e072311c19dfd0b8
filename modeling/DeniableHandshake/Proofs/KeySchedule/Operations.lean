import DeniableHandshake.Proofs.KeySchedule.Session

/-!
# The operations of a key manager, one by one

An operation leaves alone what its one write leaves alone, also when it fails. Under a derivation that
computes a function, a ratchet step or a draw whose counter can still move on succeeds, and what it
returns and writes is given here by that function.
-/
namespace DeniableHandshake
open Session

variable {σ : Type} {d : Derivation σ} {f : Query → (n : Nat) → Block n} {m : KeyManager}

/-- The keys of a ratchet step, from its input. -/
def RatchetKeys.derived (f : Query → (n : Nat) → Block n) (input : Bytes) : RatchetKeys :=
  ⟨f (Usage.rootKey.query input) rootKeySize, ⟨f (Usage.chainKeyA.query input) chainKeySize, 0⟩,
    ⟨f (Usage.chainKeyB.query input) chainKeySize, 0⟩⟩

namespace ChainKey
variable (f : Query → (n : Nat) → Block n) (c : ChainKey)

def messageKeys : MessageKeys :=
  ⟨f (Usage.messageKey.query c.key.toList) messageKeySize,
    f (Usage.macKey.query c.key.toList) macKeySize, c.messageId⟩

def next : ChainKey :=
  ⟨f (Usage.nextChainKey.query c.key.toList) chainKeySize, c.messageId + 1⟩

end ChainKey

namespace RatchetKeys
variable (r : RatchetKeys) (k : ChainKey) (c : Chain)

@[simp] theorem root_setChain : (r.setChain k c).root = r.root := by
  cases c <;> rfl

@[simp] theorem chain_setChain (c' : Chain) :
    (r.setChain k c).chain c' = if c' = c then k else r.chain c' := by
  cases c <;> cases c' <;> rfl

end RatchetKeys

namespace KeyManager

/-! ### What an operation writes

Each operation leaves every part of the manager alone that its one write leaves alone, also when it
fails. -/

section Writes

variable {γ : Type} {part : KeyManager → γ}

theorem preserves_generateKeys (entropy : Entropy)
    (hpart : ∀ m curve group, part { m with ourCurve := curve, ourGroup := group } = part m) :
    Preserves part (generateKeys entropy : Session σ Unit) := by
  unfold generateKeys
  refine (preserves_ofExcept _).bind fun ⟨curve, rest⟩ => ?_
  refine (preserves_ofExcept _).bind fun ⟨group, _⟩ => ?_
  exact preserves_update fun m => hpart m curve group

theorem preserves_deriveSharedSecret (d : Derivation σ)
    (hpart : ∀ m brace, part { m with brace := brace } = part m) :
    Preserves part (deriveSharedSecret d) := by
  unfold deriveSharedSecret
  refine preserves_manager.bind fun m => ?_
  dsimp only
  -- each of the three checks ends the session at once or lets it go on
  simp only [throw_bind]
  split
  · exact preserves_throw _
  split
  · exact preserves_throw _
  split
  · exact preserves_throw _
  refine (preserves_ofExcept _).bind fun curve => ?_
  refine (preserves_ofExcept _).bind fun group => ?_
  refine (preserves_ask d _ _).bind fun brace => ?_
  refine (preserves_ask d _ _).bind fun secret => ?_
  exact (preserves_update fun m => hpart m brace).bind fun _ => preserves_pure secret

theorem preserves_deriveRatchetKeys (d : Derivation σ) (input : Bytes) :
    Preserves part (deriveRatchetKeys d input) := by
  unfold deriveRatchetKeys
  apply (preserves_ask d _ _).bind
  intro root
  apply (preserves_ask d _ _).bind
  intro chainA
  apply (preserves_ask d _ _).bind
  intro chainB
  exact preserves_pure _

theorem preserves_newRatchet (d : Derivation σ) (secret : Bytes)
    (hpart : ∀ m keys, part { m with current := keys, index := m.index + 1 } = part m) :
    Preserves part (newRatchet d secret) := by
  unfold newRatchet
  apply preserves_manager.bind
  intro m
  dsimp only
  simp only [throw_bind]
  have hderived (input : Bytes) : Preserves part (deriveRatchetKeys d input >>= fun keys =>
      update fun m => { m with current := keys, index := m.index + 1 }) :=
    (preserves_deriveRatchetKeys d input).bind fun keys => preserves_update fun m => hpart m keys
  split
  · exact preserves_throw _
  split
  · exact (preserves_pure secret).bind hderived
  · exact ((preserves_ask d _ _).map Block.toList).bind hderived

theorem preserves_nextMessageKeys (d : Derivation σ) (chain : Chain)
    (hpart : ∀ m k, part { m with current := m.current.setChain k chain } = part m) :
    Preserves part (nextMessageKeys d chain) := by
  unfold nextMessageKeys
  apply preserves_manager.bind
  intro m
  dsimp only
  simp only [throw_bind]
  split
  · exact preserves_throw _
  apply (preserves_ask d _ _).bind
  intro encryption
  apply (preserves_ask d _ _).bind
  intro mac
  apply (preserves_ask d _ _).bind
  intro next
  exact (preserves_update fun m => hpart m _).bind fun _ => preserves_pure _

end Writes

/-- What ratchet steps and draws write. -/
def ratchet (m : KeyManager) : UInt32 × RatchetKeys := (m.index, m.current)

theorem preserves_ratchet_generateKeys (entropy : Entropy) :
    Preserves ratchet (generateKeys entropy : Session σ Unit) :=
  preserves_generateKeys entropy fun _ _ _ => rfl

theorem preserves_ratchet_setTheirKeys (point : Curve448.Point) (value : Modp3072.Value) :
    Preserves ratchet (setTheirKeys point value : Session σ Unit) :=
  preserves_update fun _ => rfl

theorem preserves_ratchet_deriveSharedSecret (d : Derivation σ) :
    Preserves ratchet (deriveSharedSecret d) :=
  preserves_deriveSharedSecret d fun _ _ => rfl

/-! ### What a ratchet step and a draw return -/

/-- What the keys of the next ratchet step are derived from. -/
def ratchetInput (f : Query → (n : Nat) → Block n) (m : KeyManager) (secret : Bytes) : Bytes :=
  if m.index = 0 then secret
  else (f (.keyed m.current.root.toList secret) sharedSecretSize).toList

theorem returns_deriveRatchetKeys (hd : d.Computes f) (input : Bytes) :
    Returns (deriveRatchetKeys d input) m (.derived f input) m := by
  unfold deriveRatchetKeys
  apply (returns_ask hd _ _).bind
  apply (returns_ask hd _ _).bind
  apply (returns_ask hd _ _).bind
  exact returns_pure _

theorem returns_newRatchet (hd : d.Computes f) (secret : Bytes)
    (hm : m.index.toNat + 1 ≠ UInt32.size) :
    Returns (newRatchet d secret) m ()
      { m with current := .derived f (m.ratchetInput f secret), index := m.index + 1 } := by
  unfold newRatchet ratchetInput
  apply returns_manager.bind
  dsimp only
  rw [if_neg hm]
  by_cases hi : m.index = 0
  · rw [if_pos hi, if_pos hi]
    apply (returns_pure secret).bind
    exact (returns_deriveRatchetKeys hd secret).bind (returns_update _)
  · rw [if_neg hi, if_neg hi]
    apply ((returns_ask hd _ _).map Block.toList).bind
    exact (returns_deriveRatchetKeys hd _).bind (returns_update _)

theorem returns_nextMessageKeys (hd : d.Computes f) (chain : Chain)
    (hm : (m.current.chain chain).messageId.toNat + 1 ≠ UInt32.size) :
    Returns (nextMessageKeys d chain) m ((m.current.chain chain).messageKeys f)
      { m with current := m.current.setChain ((m.current.chain chain).next f) chain } := by
  unfold nextMessageKeys
  apply returns_manager.bind
  dsimp only
  rw [if_neg hm]
  apply (returns_ask hd _ _).bind
  apply (returns_ask hd _ _).bind
  apply (returns_ask hd _ _).bind
  apply (returns_update _).bind
  exact returns_pure _

/-! ### Steps of a run -/

theorem step_snd (op : Operation) (s : KeyManager × σ) :
    (step d op s).2 = (perform d op).after s := by
  unfold step after
  cases perform d op s with
  | ok a t => rfl
  | error e t => rfl

theorem step_of_returns {op : Operation} {a : Answer} {m' : KeyManager}
    (h : Returns (perform d op) m a m') (s : σ) :
    (step d op (m, s)).1 = .ok a ∧ (step d op (m, s)).2.1 = m' := by
  obtain ⟨t, ht⟩ := h s
  unfold step
  rw [ht]
  exact ⟨rfl, rfl⟩

/-- Clearing succeeds, leaves a new manager and asks nothing. -/
theorem step_destroy (d : Derivation σ) (x : KeyManager × σ) :
    step d .destroy x = (.ok .done, new, x.2) := by
  rw [← cleared_eq_new x.1]
  rfl

/-- A ratchet step succeeds if the index can move on. -/
theorem step_newRatchet_of_room (hd : d.Computes f) (secret : Bytes)
    (hm : m.index.toNat + 1 ≠ UInt32.size) (s : σ) :
    (step d (.newRatchet secret) (m, s)).1 = .ok .done ∧
      (step d (.newRatchet secret) (m, s)).2.1 =
        { m with current := .derived f (m.ratchetInput f secret), index := m.index + 1 } := by
  have hreturns : Returns (perform d (.newRatchet secret)) m .done _ :=
    (returns_newRatchet hd secret hm).map _
  exact step_of_returns hreturns s

/-- A draw succeeds if the counter of the chain can move on. -/
theorem step_nextMessageKeys_of_room (hd : d.Computes f) {c : Chain}
    (hm : (m.current.chain c).messageId.toNat + 1 ≠ UInt32.size) (s : σ) :
    (step d (.nextMessageKeys c) (m, s)).1 = .ok (.messageKeys ((m.current.chain c).messageKeys f)) ∧
      (step d (.nextMessageKeys c) (m, s)).2.1 =
        { m with current := m.current.setChain ((m.current.chain c).next f) c } := by
  have hreturns : Returns (perform d (.nextMessageKeys c)) m (.messageKeys _) _ :=
    (returns_nextMessageKeys hd c hm).map Answer.messageKeys
  exact step_of_returns hreturns s

theorem step_preserves {γ : Type} {part : KeyManager → γ} {op : Operation}
    (h : Preserves part (perform d op)) (s : KeyManager × σ) :
    part (step d op s).2.1 = part s.1 := by
  rw [step_snd]
  exact h s

theorem run_concat (ops : List Operation) (op : Operation) (s : KeyManager × σ) :
    (run d (ops ++ [op]) s).2 = (step d op (run d ops s).2).2 := by
  induction ops generalizing s with
  | nil => rfl
  | cons first ops ih => exact ih (step d first s).2

/-- What a run does at one place is what the operation there does after the operations before it. -/
theorem run_getElem? (ops : List Operation) (i : Nat) (s : KeyManager × σ) :
    (run d ops s).1[i]? = ops[i]?.map fun op => (step d op (run d (ops.take i) s).2).1 := by
  induction ops generalizing i s with
  | nil => rfl
  | cons op ops ih =>
    cases i with
    | zero => rfl
    | succ i =>
      simp only [run, List.getElem?_cons_succ, List.take_succ_cons]
      exact ih i (step d op s).2

end KeyManager

end DeniableHandshake
