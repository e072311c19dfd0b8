import DeniableHandshake.Proofs.KeySchedule.Atomicity
import DeniableHandshake.Proofs.KeySchedule.RatchetHistory
import DeniableHandshake.Proofs.KeySchedule.Responses
import DeniableHandshake.Proofs.KeySchedule.SharedHistory

/-!
# What ratchet steps and draws add to the record

Under a derivation that agrees with a function, a ratchet step or a draw that succeeds has one possible
outcome, and it adds the same responses to the record wherever it is performed. The keys of a ratchet
step are spelled out here by their positions on the chains, each with the query that it answers.
-/
namespace DeniableHandshake

variable {σ α β : Type} {d : Derivation σ} {f : Query → (n : Nat) → Block n}
  {m m₁ m₂ : KeyManager} {a : α} {b : β}

/-- The response that a function gives. -/
def Response.of (f : Query → (n : Nat) → Block n) (q : Query) (n : Nat) : Response := ⟨q, (f q n).toList⟩

namespace Session

/-- If the session returns from one manager, then it returns this value, leaves this manager and
adds these responses to the record. -/
def Yields (x : Session (σ × List Response) α) (m : KeyManager) (a : α) (m' : KeyManager)
    (new : List Response) : Prop :=
  ∀ s l b t, x (m, s, l) = .ok b t → b = a ∧ t.1 = m' ∧ t.2.2 = l ++ new

theorem yields_pure (a : α) : Yields (pure a : Session (σ × List Response) α) m a m [] := by
  intro s l b t h
  cases h
  exact ⟨rfl, rfl, (List.append_nil l).symm⟩

theorem yields_throw (e : KeyError) (a : α) (m' : KeyManager) (new : List Response) :
    Yields (throw e : Session (σ × List Response) α) m a m' new := nofun

theorem yields_manager : Yields (manager : Session (σ × List Response) KeyManager) m m m [] := by
  intro s l b t h
  cases h
  exact ⟨rfl, rfl, (List.append_nil l).symm⟩

theorem yields_update (g : KeyManager → KeyManager) :
    Yields (update g : Session (σ × List Response) Unit) m () (g m) [] := by
  intro s l b t h
  cases h
  exact ⟨rfl, rfl, (List.append_nil l).symm⟩

theorem yields_ask (hd : d.AgreesWith f) (q : Query) (n : Nat) :
    Yields (ask d.recorded q n) m (f q n) m [.of f q n] := by
  intro s l b t h
  unfold ask Derivation.recorded at h
  rcases hs : d.answer q n s with ⟨_ | b', s'⟩
  · simp only [hs] at h
    cases h
  · simp only [hs] at h
    cases h
    have hb := hd q n s b (congrArg Prod.fst hs)
    subst hb
    exact ⟨rfl, rfl, rfl⟩

theorem Yields.bind {x : Session (σ × List Response) α} {g : α → Session (σ × List Response) β}
    {new new' : List Response} (hx : Yields x m a m₁ new) (hg : Yields (g a) m₁ b m₂ new') :
    Yields (x >>= g) m b m₂ (new ++ new') := by
  intro s l c t h
  cases hs : x (m, s, l) with
  | error e u =>
    rw [bind_of_error hs] at h
    cases h
  | ok a' u =>
    obtain ⟨m', s', l'⟩ := u
    obtain ⟨rfl, rfl, rfl⟩ := hx s l a' (m', s', l') hs
    rw [bind_of_ok hs] at h
    have ht := hg s' _ c t h
    rwa [List.append_assoc] at ht

variable {x : Session (σ × List Response) α} {new : List Response}

theorem Yields.map (hx : Yields x m a m₁ new) (g : α → β) : Yields (g <$> x) m (g a) m₁ new := by
  have hbind : Yields (x >>= fun a => pure (g a)) m (g a) m₁ (new ++ []) := hx.bind (yields_pure _)
  rwa [List.append_nil, ← map_eq_pure_bind] at hbind

theorem Yields.bind_update (hx : Yields x m a m₁ new) (g : α → KeyManager → KeyManager) :
    Yields (x >>= fun a => update (g a)) m () (g a m₁) new := by
  have hbind : Yields (x >>= fun a => update (g a)) m () (g a m₁) (new ++ []) :=
    hx.bind (yields_update _)
  rwa [List.append_nil] at hbind

end Session

namespace KeyManager
open Session

/-- What a ratchet step from an input asks. -/
def keyResponses (f : Query → (n : Nat) → Block n) (input : Bytes) : List Response :=
  [.of f (Usage.rootKey.query input) rootKeySize, .of f (Usage.chainKeyA.query input) chainKeySize,
    .of f (Usage.chainKeyB.query input) chainKeySize]

/-- What a ratchet step asks. -/
def ratchetResponses (f : Query → (n : Nat) → Block n) (m : KeyManager) (secret : Bytes) :
    List Response :=
  (if m.index = 0 then [] else [.of f (.keyed m.current.root.toList secret) sharedSecretSize]) ++
    keyResponses f (m.ratchetInput f secret)

/-- What a draw asks. -/
def drawResponses (f : Query → (n : Nat) → Block n) (c : ChainKey) : List Response :=
  [.of f (Usage.messageKey.query c.key.toList) messageKeySize,
    .of f (Usage.macKey.query c.key.toList) macKeySize,
    .of f (Usage.nextChainKey.query c.key.toList) chainKeySize]

theorem yields_deriveRatchetKeys (hd : d.AgreesWith f) (input : Bytes) :
    Yields (deriveRatchetKeys d.recorded input) m (.derived f input) m (keyResponses f input) := by
  unfold deriveRatchetKeys
  apply (yields_ask hd _ _).bind
  apply (yields_ask hd _ _).bind
  apply (yields_ask hd _ _).bind
  exact yields_pure _

theorem yields_newRatchet (hd : d.AgreesWith f) (secret : Bytes) :
    Yields (newRatchet d.recorded secret) m ()
      { m with current := .derived f (m.ratchetInput f secret), index := m.index + 1 }
      (m.ratchetResponses f secret) := by
  unfold newRatchet ratchetResponses ratchetInput
  apply yields_manager.bind
  dsimp only
  simp only [throw_bind]
  split
  · exact yields_throw _ _ _ _
  split
  · apply (yields_pure secret).bind
    exact (yields_deriveRatchetKeys hd secret).bind_update _
  · apply ((yields_ask hd _ _).map Block.toList).bind
    exact (yields_deriveRatchetKeys hd _).bind_update _

theorem yields_nextMessageKeys (hd : d.AgreesWith f) (chain : Chain) :
    Yields (nextMessageKeys d.recorded chain) m ((m.current.chain chain).messageKeys f)
      { m with current := m.current.setChain ((m.current.chain chain).next f) chain }
      (drawResponses f (m.current.chain chain)) := by
  unfold nextMessageKeys
  apply yields_manager.bind
  dsimp only
  simp only [throw_bind]
  split
  · exact yields_throw _ _ _ _
  apply (yields_ask hd _ _).bind
  apply (yields_ask hd _ _).bind
  apply (yields_ask hd _ _).bind
  apply (yields_update _).bind
  exact yields_pure _

/-! ### Steps that succeed -/

theorem step_of_yields {op : Operation} {new : List Response} {answer answer' : Answer}
    (h : Yields (perform d.recorded op) m answer m₁ new) {s : σ} {l : List Response}
    (hok : (step d.recorded op (m, s, l)).1 = .ok answer') :
    answer' = answer ∧ (step d.recorded op (m, s, l)).2.1 = m₁ ∧
      (step d.recorded op (m, s, l)).2.2.2 = l ++ new := by
  unfold step at hok ⊢
  cases hs : perform d.recorded op (m, s, l) with
  | error e t =>
    rw [hs] at hok
    cases hok
  | ok a t =>
    rw [hs] at hok
    obtain rfl := Except.ok.inj hok
    exact h s l a t hs

variable {answer : Answer} {s : σ} {l : List Response}

theorem step_newRatchet_of_ok (hd : d.AgreesWith f) {secret : Bytes}
    (hok : (step d.recorded (.newRatchet secret) (m, s, l)).1 = .ok answer) :
    m.index.toNat + 1 < UInt32.size ∧
      (step d.recorded (.newRatchet secret) (m, s, l)).2.1 =
        { m with current := .derived f (m.ratchetInput f secret), index := m.index + 1 } ∧
      (step d.recorded (.newRatchet secret) (m, s, l)).2.2.2 = l ++ m.ratchetResponses f secret := by
  have hperform : Yields (perform d.recorded (.newRatchet secret)) m .done _ _ :=
    (yields_newRatchet hd secret).map _
  refine ⟨?_, (step_of_yields hperform hok).2⟩
  have hbound : m.index.toNat < UInt32.size := m.index.toNat_lt
  have hroom : m.index.toNat + 1 ≠ UInt32.size := by
    intro hlimit
    rw [step_newRatchet_of_limit d.recorded hlimit] at hok
    cases hok
  omega

theorem step_nextMessageKeys_of_ok (hd : d.AgreesWith f) {c : Chain}
    (hok : (step d.recorded (.nextMessageKeys c) (m, s, l)).1 = .ok answer) :
    (m.current.chain c).messageId.toNat + 1 < UInt32.size ∧
      answer = .messageKeys ((m.current.chain c).messageKeys f) ∧
      (step d.recorded (.nextMessageKeys c) (m, s, l)).2.1 =
        { m with current := m.current.setChain ((m.current.chain c).next f) c } ∧
      (step d.recorded (.nextMessageKeys c) (m, s, l)).2.2.2 =
        l ++ drawResponses f (m.current.chain c) := by
  have hperform : Yields (perform d.recorded (.nextMessageKeys c)) m (.messageKeys _) _ _ :=
    (yields_nextMessageKeys hd c).map _
  refine ⟨?_, step_of_yields hperform hok⟩
  have hbound : (m.current.chain c).messageId.toNat < UInt32.size := UInt32.toNat_lt _
  have hroom : (m.current.chain c).messageId.toNat + 1 ≠ UInt32.size := by
    intro hlimit
    rw [step_nextMessageKeys_of_limit d.recorded hlimit] at hok
    cases hok
  omega

end KeyManager

end DeniableHandshake
