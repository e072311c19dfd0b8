import DeniableHandshake.Proofs.KeySchedule.Accounts

/-!
# Draws with and without a ratchet step

The operations of a run that succeed tell the ratchet also when the derivation fails here and there, as
long as its answers are the values of a function. A draw succeeds if its counter can move on and its three
queries are answered, whether or not there was a ratchet step. Without one the chain starts from the zero
key, so the message keys depend on nothing but their place.
-/
namespace DeniableHandshake
open Session

variable {σ : Type} {d : Derivation σ} {f : Query → (n : Nat) → Block n} {m : KeyManager} {s : σ}

/-- The queries, each for its number of bytes, are answered one after another. -/
def Derivation.AnswersAll (d : Derivation σ) : List (Query × Nat) → σ → Prop
  | [], _ => True
  | (q, n) :: rest, s => (d.answer q n s).1.isOk = true ∧ d.AnswersAll rest (d.answer q n s).2

namespace Session
variable {α β : Type} {rest : List (Query × Nat)}

def Succeeds (x : Session σ α) (s : KeyManager × σ) : Prop := ∃ a t, x s = .ok a t

theorem succeeds_update_bind_pure (g : KeyManager → KeyManager) (a : α) (t : KeyManager × σ) :
    (update g >>= fun _ => pure a : Session σ α).Succeeds t := ⟨a, _, rfl⟩

/-- A session that asks first needs this answer and what the rest of it needs. -/
theorem succeeds_ask_bind {q : Query} {n : Nat} {g : Block n → Session σ β}
    (hg : ∀ b s, (g b).Succeeds (m, s) ↔ d.AnswersAll rest s) (s : σ) :
    (ask d q n >>= g).Succeeds (m, s) ↔ d.AnswersAll ((q, n) :: rest) s := by
  unfold Succeeds Derivation.AnswersAll
  rcases hs : d.answer q n s with ⟨r | b, t⟩
  · have hask : ask d q n (m, s) = .error r.error (m, t) := by simp only [ask, hs]
    simp only [bind_of_error hask]
    constructor
    · rintro ⟨a, u, h⟩
      cases h
    · rintro ⟨h, -⟩
      cases h
  · have hask : ask d q n (m, s) = .ok b (m, t) := by simp only [ask, hs]
    simp only [bind_of_ok hask]
    exact (hg b t).trans ⟨fun h => ⟨rfl, h⟩, And.right⟩

end Session

namespace RatchetHistory.Matches
variable {h : RatchetHistory}

theorem draws_lt (hm : h.Matches f m) (c : Chain) : h.draws c < UInt32.size := by
  rw [← hm.messageId c]
  exact UInt32.toNat_lt _

theorem bounded_newRatchet (hm : h.Matches f m) (hroom : m.index.toNat + 1 < UInt32.size)
    (secret : Bytes) : (h.next (.newRatchet secret)).Bounded := by
  refine ⟨?_, fun c => Nat.two_pow_pos 32⟩
  rw [RatchetHistory.next, List.length_append, List.length_singleton, ← hm.index]
  exact hroom

theorem bounded_nextMessageKeys (hm : h.Matches f m) {c : Chain}
    (hroom : (m.current.chain c).messageId.toNat + 1 < UInt32.size) :
    (h.next (.nextMessageKeys c)).Bounded := by
  constructor
  · rw [RatchetHistory.next, ← hm.index]
    exact m.index.toNat_lt
  · intro c'
    simp only [RatchetHistory.next]
    by_cases hc : c' = c
    · subst hc
      rw [if_pos rfl, ← hm.messageId c']
      exact hroom
    · rw [if_neg hc]
      exact hm.draws_lt c'

end RatchetHistory.Matches

namespace KeyManager
open RatchetHistory

variable {h : RatchetHistory}

/-! ### The history of the operations that succeed -/

/-- The record of a derivation is not seen in what a step returns and writes. -/
theorem step_recorded_eq (d : Derivation σ) (op : Operation) (m : KeyManager) (s : σ) :
    (step d.recorded op (m, s, [])).1 = (step d op (m, s)).1 ∧
      (step d.recorded op (m, s, [])).2.1 = (step d op (m, s)).2.1 := by
  obtain ⟨new, hrecorded, -⟩ := step_recorded d op m s []
  rw [hrecorded]
  exact ⟨rfl, rfl⟩

theorem matches_step_of_ok (hd : d.AgreesWith f) (hm : h.Matches f m) {op : Operation} {a : Answer}
    (hok : (step d op (m, s)).1 = .ok a) : (h.next op).Matches f (step d op (m, s)).2.1 := by
  obtain ⟨houtcome, hwritten⟩ := step_recorded_eq d op m s
  rw [← houtcome] at hok
  rw [← hwritten]
  cases op with
  | generateKeys entropy => exact hm.of_ratchet_eq (ratchet_step_of_isExchange d.recorded rfl _)
  | setTheirKeys point value => exact hm.of_ratchet_eq (ratchet_step_of_isExchange d.recorded rfl _)
  | deriveSharedSecret => exact hm.of_ratchet_eq (ratchet_step_of_isExchange d.recorded rfl _)
  | newRatchet secret =>
    obtain ⟨hroom, hmanager, -⟩ := step_newRatchet_of_ok hd hok
    rw [hmanager]
    exact hm.newRatchet (hm.bounded_newRatchet hroom secret)
  | nextMessageKeys c =>
    obtain ⟨hroom, -, hmanager, -⟩ := step_nextMessageKeys_of_ok hd hok
    rw [hmanager]
    exact hm.nextMessageKeys (hm.bounded_nextMessageKeys hroom)
  | destroy =>
    rw [step_destroy]
    exact .new

theorem matches_run (hd : d.AgreesWith f) (hm : h.Matches f m) (ops : List Operation) (s : σ) :
    (h.after (effective d ops (m, s))).Matches f (run d ops (m, s)).2.1 :=
  run_effective RatchetHistory.next (Matches f) (fun _ _ _ _ _ hm hok => matches_step_of_ok hd hm hok)
    hm ops s

/-! ### When a draw succeeds -/

/-- What a draw asks of a chain key. -/
def drawQueries (key : Block chainKeySize) : List (Query × Nat) :=
  [(Usage.messageKey.query key.toList, messageKeySize), (Usage.macKey.query key.toList, macKeySize),
    (Usage.nextChainKey.query key.toList, chainKeySize)]

theorem succeeds_nextMessageKeys {c : Chain}
    (hroom : (m.current.chain c).messageId.toNat + 1 ≠ UInt32.size) (s : σ) :
    (nextMessageKeys d c).Succeeds (m, s) ↔
      d.AnswersAll (drawQueries (m.current.chain c).key) s := by
  have hmanager : (manager : Session σ KeyManager) (m, s) = .ok m (m, s) := rfl
  unfold nextMessageKeys Succeeds
  rw [bind_of_ok hmanager]
  dsimp only
  rw [if_neg hroom]
  refine succeeds_ask_bind (fun encryption s => ?_) s
  refine succeeds_ask_bind (fun mac s => ?_) s
  refine succeeds_ask_bind (fun next s => ?_) s
  exact iff_of_true (succeeds_update_bind_pure _ _ _) trivial

/-- A draw that succeeds returns the keys of its chain key. -/
theorem step_nextMessageKeys_eq_ok_iff (hd : d.AgreesWith f) {c : Chain} {a : Answer} :
    (step d (.nextMessageKeys c) (m, s)).1 = .ok a ↔
      (m.current.chain c).messageId.toNat + 1 < UInt32.size ∧
        d.AnswersAll (drawQueries (m.current.chain c).key) s ∧
        a = .messageKeys ((m.current.chain c).messageKeys f) := by
  obtain ⟨houtcome, -⟩ := step_recorded_eq d (.nextMessageKeys c) m s
  constructor
  · intro hok
    obtain ⟨hroom, hkeys, -⟩ := step_nextMessageKeys_of_ok hd (houtcome.trans hok)
    refine ⟨hroom, (succeeds_nextMessageKeys (Nat.ne_of_lt hroom) s).mp ?_, hkeys⟩
    simp only [step, perform, map_eq_pure_bind] at hok
    cases hs : nextMessageKeys d c (m, s) with
    | ok k t => exact ⟨k, t, hs⟩
    | error e t =>
      rw [bind_of_error hs] at hok
      cases hok
  · rintro ⟨hroom, hanswers, rfl⟩
    obtain ⟨k, t, hs⟩ := (succeeds_nextMessageKeys (Nat.ne_of_lt hroom) s).mpr hanswers
    have hok : (step d (.nextMessageKeys c) (m, s)).1 = .ok (.messageKeys k) := by
      simp only [step, perform, map_eq_pure_bind, bind_of_ok hs]
      rfl
    obtain ⟨-, hkeys, -⟩ := step_nextMessageKeys_of_ok hd (houtcome.trans hok)
    rw [hok, hkeys]

/-- In every state that a run reaches, a draw succeeds exactly if the counter of its chain can move on and
the derivation answers, and then the keys are those of the history. So a draw succeeds as well where there
was no ratchet step since the manager was new or cleared, and then the history is one of the zero key. -/
theorem draws_with_or_without_ratchet (hd : d.AgreesWith f) (ops : List Operation) (s : σ) (c : Chain) :
    let x := (run d ops (new, s)).2
    let h := RatchetHistory.of (effective d ops (new, s))
    (∀ a, (step d (.nextMessageKeys c) x).1 = .ok a ↔
      h.draws c + 1 < UInt32.size ∧ d.AnswersAll (drawQueries (h.chainKey f c)) x.2 ∧
        a = .messageKeys (h.messageKeys f c)) ∧
    (h.secrets = [] → x.1.index = 0 ∧ x.1.current.root = .zero rootKeySize ∧
      h.chainKey f c = Nat.repeat (advance f) (h.draws c) (.zero chainKeySize)) := by
  intro x h
  have hm : h.Matches f x.1 := matches_run hd .new ops s
  constructor
  · intro a
    rw [← hm.messageId c, ← hm.key c, ← hm.messageKeys_eq c]
    exact step_nextMessageKeys_eq_ok_iff hd
  · intro hnone
    have hindex := hm.index
    rw [hnone] at hindex
    refine ⟨UInt32.toNat_inj.mp hindex, ?_, ?_⟩
    · rw [hm.root, RatchetHistory.root, hnone]
      rfl
    · rw [chainKey, startKey, hnone]
      rfl

/-- A manager that never was on a ratchet step, and one that was and has been cleared, hand out the message
keys of the zero key. -/
theorem draws_with_or_without_ratchet_cleared :
    let d : Derivation Unit := .shake
    let zeroKeys : MessageKeys :=
      ⟨Query.shake (Usage.messageKey.query (List.replicate 64 0)) messageKeySize,
        Query.shake (Usage.macKey.query (List.replicate 64 0)) macKeySize, 0⟩
    d.AgreesWith Query.shake ∧ ∀ ops ∈ [[], [.newRatchet [1], .destroy]], ∀ c,
      (step d (.nextMessageKeys c) (run d ops (new, ())).2).1 = .ok (.messageKeys zeroKeys) := by
  intro d zeroKeys
  have hd : d.AgreesWith Query.shake := Derivation.computes_shake.agreesWith
  refine ⟨hd, List.forall_mem_cons.mpr ⟨?_, List.forall_mem_singleton.mpr ?_⟩⟩
  · intro c
    apply ((draws_with_or_without_ratchet hd [] () c).1 _).mpr
    refine ⟨?_, ⟨rfl, rfl, rfl, trivial⟩, ?_⟩
    · cases c <;> decide
    · cases c <;> rfl
  · intro c
    apply ((draws_with_or_without_ratchet hd [.newRatchet [1], .destroy] () c).1 _).mpr
    refine ⟨?_, ⟨rfl, rfl, rfl, trivial⟩, ?_⟩
    · cases c <;> decide
    · cases c <;> rfl

end KeyManager

end DeniableHandshake
