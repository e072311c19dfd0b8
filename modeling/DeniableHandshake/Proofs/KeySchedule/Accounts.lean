import DeniableHandshake.Proofs.KeySchedule.Collisions

/-!
# Ratchet state and record together

The keys of a manager on a ratchet step are told by the input of the step and by how many message keys
were drawn from each chain, and the record holds the responses that led to them. A ratchet step that
succeeds starts such an account, a draw that succeeds takes it one place further, and nothing else
touches it.
-/
namespace DeniableHandshake
open Session

variable {σ : Type} {d : Derivation σ} {f : Query → (n : Nat) → Block n} {m m' : KeyManager}
  {l l' : List Response} {s : σ}

namespace RatchetStep

/-- The responses to the message queries at a place of a chain. -/
def MessageResponses (f : Query → (n : Nat) → Block n) (input : Bytes) (c : Chain) (i : Nat)
    (l : List Response) : Prop :=
  Response.of f (Usage.messageKey.query (keyAt f input c i).toList) messageKeySize ∈ l ∧
    Response.of f (Usage.macKey.query (keyAt f input c i).toList) macKeySize ∈ l

/-- The keys are those of the step with an input, each chain at a place, and the record accounts for
them and for the message keys of all places before. -/
structure Holds (f : Query → (n : Nat) → Block n) (input : Bytes) (places : Chain → Nat)
    (keys : RatchetKeys) (l : List Response) : Prop where
  root : keys.root = f (Usage.rootKey.query input) rootKeySize
  key : ∀ c, (keys.chain c).key = keyAt f input c (places c)
  messageId : ∀ c, (keys.chain c).messageId.toNat = places c
  rootResponse : Response.of f (Usage.rootKey.query input) rootKeySize ∈ l
  keyResponses : ∀ c, ∀ i ≤ places c, Response.of f (keyQuery f input c i) chainKeySize ∈ l
  messageResponses : ∀ c, ∀ i < places c, MessageResponses f input c i l

/-- One place further on a chain. -/
def moved (places : Chain → Nat) (c : Chain) : Chain → Nat :=
  fun c' => if c' = c then places c' + 1 else places c'

variable {input : Bytes} {places : Chain → Nat} {keys : RatchetKeys} {c : Chain}

theorem moved_self : moved places c c = places c + 1 := if_pos rfl

theorem moved_of_ne {c' : Chain} (h : c' ≠ c) : moved places c c' = places c' := if_neg h

theorem MessageResponses.mono {i : Nat} (h : MessageResponses f input c i l) (hl : l ⊆ l') :
    MessageResponses f input c i l' := ⟨hl h.1, hl h.2⟩

namespace Holds

theorem mono (h : Holds f input places keys l) (hl : l ⊆ l') : Holds f input places keys l' :=
  ⟨h.root, h.key, h.messageId, hl h.rootResponse, fun c i hi => hl (h.keyResponses c i hi),
    fun c i hi => (h.messageResponses c i hi).mono hl⟩

theorem start (hl : KeyManager.keyResponses f input ⊆ l) :
    Holds f input (fun _ => 0) (.derived f input) l := by
  have hroot : Response.of f (Usage.rootKey.query input) rootKeySize ∈ l := hl List.mem_cons_self
  have hkey (c : Chain) : Response.of f (c.usage.query input) chainKeySize ∈ l := by
    apply hl
    cases c with
    | a => exact List.mem_cons_of_mem _ List.mem_cons_self
    | b => exact List.mem_cons_of_mem _ (List.mem_cons_of_mem _ List.mem_cons_self)
  refine ⟨rfl, ?_, ?_, hroot, ?_, nofun⟩
  · intro c
    cases c <;> rfl
  · intro c
    cases c <;> rfl
  · intro c i hi
    obtain rfl := Nat.le_zero.mp hi
    exact hkey c

theorem draw (h : Holds f input places keys l)
    (hroom : (keys.chain c).messageId.toNat + 1 < UInt32.size)
    (hl : KeyManager.drawResponses f (keys.chain c) ⊆ l') (hgrow : l ⊆ l') :
    Holds f input (moved places c) (keys.setChain ((keys.chain c).next f) c) l' := by
  rw [KeyManager.drawResponses, h.key c] at hl
  refine ⟨?_, ?_, ?_, hgrow h.rootResponse, ?_, ?_⟩
  · rw [RatchetKeys.root_setChain, h.root]
  · intro c'
    rw [RatchetKeys.chain_setChain]
    by_cases hc : c' = c
    · subst hc
      rw [if_pos rfl, moved_self, ChainKey.next, h.key]
      rfl
    · rw [if_neg hc, moved_of_ne hc, h.key]
  · intro c'
    rw [RatchetKeys.chain_setChain]
    by_cases hc : c' = c
    · subst hc
      rw [if_pos rfl, moved_self, ← h.messageId]
      exact RatchetHistory.toNat_add_one hroom
    · rw [if_neg hc, moved_of_ne hc, h.messageId]
  · intro c' i hi
    by_cases hc : c' = c
    · subst hc
      rw [moved_self] at hi
      obtain hlast | hbefore := Nat.eq_or_lt_of_le hi
      · subst hlast
        exact hl (List.mem_cons_of_mem _ (List.mem_cons_of_mem _ List.mem_cons_self))
      · exact hgrow (h.keyResponses c' i (Nat.le_of_lt_succ hbefore))
    · rw [moved_of_ne hc] at hi
      exact hgrow (h.keyResponses c' i hi)
  · intro c' i hi
    by_cases hc : c' = c
    · subst hc
      rw [moved_self] at hi
      obtain hlast | hbefore := Nat.eq_or_lt_of_le (Nat.le_of_lt_succ hi)
      · subst hlast
        exact ⟨hl List.mem_cons_self, hl (List.mem_cons_of_mem _ List.mem_cons_self)⟩
      · exact (h.messageResponses c' i hbefore).mono hgrow
    · rw [moved_of_ne hc] at hi
      exact (h.messageResponses c' i hi).mono hgrow

end Holds

end RatchetStep

/-- The operations that only touch the exchange half of a manager. -/
def Operation.isExchange : Operation → Bool
  | .generateKeys _ => true
  | .setTheirKeys _ _ => true
  | .deriveSharedSecret => true
  | _ => false

namespace KeyManager

theorem ratchet_step_of_isExchange (d : Derivation σ) {op : Operation} (h : op.isExchange = true)
    (x : KeyManager × σ) : (step d op x).2.1.ratchet = x.1.ratchet := by
  cases op with
  | generateKeys entropy => exact step_preserves ((preserves_ratchet_generateKeys entropy).map _) x
  | setTheirKeys point value =>
    exact step_preserves ((preserves_ratchet_setTheirKeys point value).map _) x
  | deriveSharedSecret => exact step_preserves ((preserves_ratchet_deriveSharedSecret d).map _) x
  | newRatchet secret => cases h
  | nextMessageKeys c => cases h
  | destroy => cases h

/-- The operations of a run that do not fail. -/
def effective (d : Derivation σ) (ops : List Operation) (s : KeyManager × σ) : List Operation :=
  ((ops.zip (run d ops s).1).filter (·.2.isOk)).map (·.1)

section Effective

variable {op : Operation} {x : KeyManager × σ}

theorem effective_cons_of_ok {a : Answer} (h : (step d op x).1 = .ok a) (ops : List Operation) :
    effective d (op :: ops) x = op :: effective d ops (step d op x).2 := by
  have hkeep : (step d op x).1.isOk = true := by
    rw [h]
    rfl
  simp only [effective, run, List.zip_cons_cons, List.filter_cons, if_pos hkeep, List.map_cons]

theorem effective_cons_of_error {e : KeyError} (h : (step d op x).1 = .error e)
    (ops : List Operation) : effective d (op :: ops) x = effective d ops (step d op x).2 := by
  have hdrop : ¬ (step d op x).1.isOk = true := by
    rw [h]
    exact Bool.false_ne_true
  simp only [effective, run, List.zip_cons_cons, List.filter_cons, if_neg hdrop]

theorem effective_recorded (d : Derivation σ) (ops : List Operation) (m : KeyManager) (s : σ)
    (l : List Response) : effective d.recorded ops (m, s, l) = effective d ops (m, s) := by
  obtain ⟨new, hnew, -⟩ := run_recorded d ops m s l
  rw [effective, effective, hnew]

end Effective

/-- What each operation that succeeds keeps between a history and the manager, a run keeps between the
history of its successful operations and the manager that it leaves. -/
theorem run_effective {η : Type} (next : η → Operation → η) (Holds : η → KeyManager → Prop)
    (hstep : ∀ h m op s a, Holds h m → (step d op (m, s)).1 = .ok a →
      Holds (next h op) (step d op (m, s)).2.1)
    {h : η} (hm : Holds h m) (ops : List Operation) (s : σ) :
    Holds ((effective d ops (m, s)).foldl next h) (run d ops (m, s)).2.1 := by
  induction ops generalizing h m s with
  | nil => exact hm
  | cons op ops ih =>
    cases hs : (step d op (m, s)).1 with
    | ok a =>
      rw [effective_cons_of_ok hs]
      exact ih (hstep h m op s a hm hs) (step d op (m, s)).2.2
    | error e =>
      have hkept : Holds h (step d op (m, s)).2.1 := by
        rw [step_of_error hs]
        exact hm
      rw [effective_cons_of_error hs]
      exact ih hkept (step d op (m, s)).2.2

/-- The record of a step begins with the record before it. -/
theorem record_subset_step (op : Operation) (m : KeyManager) (s : σ) (l : List Response) :
    l ⊆ (step d.recorded op (m, s, l)).2.2.2 := by
  obtain ⟨new, hnew, -⟩ := step_recorded d op m s l
  rw [hnew]
  exact List.subset_append_left l new

end KeyManager

end DeniableHandshake
