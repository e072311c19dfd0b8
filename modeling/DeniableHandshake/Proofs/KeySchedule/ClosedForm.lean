import DeniableHandshake.Proofs.KeySchedule.Operations
import DeniableHandshake.Proofs.KeySchedule.RatchetHistory

/-!
# The ratchet in closed form

Under a derivation that computes a function, a run from a new manager keeps the ratchet in the state
that the history of the run tells, and each draw hands out the message keys that belong to the
history before it. One operation is treated at a time; the run follows by induction.
-/
namespace DeniableHandshake
open Session

namespace RatchetHistory
variable {f : Query → (n : Nat) → Block n} {h : RatchetHistory} {m m' : KeyManager}

/-- The ratchet of the manager is in the state that the history tells. -/
structure Matches (f : Query → (n : Nat) → Block n) (h : RatchetHistory) (m : KeyManager) :
    Prop where
  index : m.index.toNat = h.secrets.length
  root : m.current.root = h.root f
  key : ∀ c, (m.current.chain c).key = h.chainKey f c
  messageId : ∀ c, (m.current.chain c).messageId.toNat = h.draws c

theorem toNat_add_one {x : UInt32} (hx : x.toNat + 1 < UInt32.size) :
    (x + 1).toNat = x.toNat + 1 := by
  rw [UInt32.toNat_add]
  exact Nat.mod_eq_of_lt hx

namespace Matches

theorem of_ratchet_eq (hm : h.Matches f m) (he : m'.ratchet = m.ratchet) : h.Matches f m' := by
  obtain ⟨hindex, hcurrent⟩ := Prod.mk.inj he
  exact ⟨hindex ▸ hm.index, hcurrent ▸ hm.root, hcurrent ▸ hm.key, hcurrent ▸ hm.messageId⟩

theorem new : empty.Matches f .new := by
  refine ⟨rfl, rfl, ?_, ?_⟩
  · intro c
    cases c <;> rfl
  · intro c
    cases c <;> rfl

/-- The root key of the manager is mixed in exactly when there was a ratchet step before. -/
theorem input_concat_eq (hm : h.Matches f m) (secret : Bytes) :
    input f (h.secrets ++ [secret]) = some (m.ratchetInput f secret) := by
  rw [input_concat]
  have hindex := hm.index
  unfold KeyManager.ratchetInput
  cases hs : h.secrets with
  | nil =>
    rw [hs] at hindex
    have hzero : m.index = 0 := UInt32.toNat_inj.mp hindex
    rw [if_pos hzero]
    rfl
  | cons first rest =>
    rw [hs] at hindex
    have hpos : m.index ≠ 0 := by
      intro hzero
      rw [hzero] at hindex
      cases hindex
    have hx : input f h.secrets = some (rest.foldl (mix f) first) := by rw [hs, input]
    rw [if_neg hpos, hm.root, root_of_input hx]
    rfl

theorem index_add_one_lt (hm : h.Matches f m) {secret : Bytes}
    (hb : (h.next (.newRatchet secret)).Bounded) : m.index.toNat + 1 < UInt32.size := by
  have hlength := hb.1
  rw [RatchetHistory.next, List.length_append, ← hm.index] at hlength
  exact hlength

theorem messageId_add_one_lt (hm : h.Matches f m) {c : Chain}
    (hb : (h.next (.nextMessageKeys c)).Bounded) :
    (m.current.chain c).messageId.toNat + 1 < UInt32.size := by
  have hdraws := hb.2 c
  simp only [RatchetHistory.next, if_true] at hdraws
  rw [hm.messageId]
  exact hdraws

theorem newRatchet (hm : h.Matches f m) {secret : Bytes}
    (hb : (h.next (.newRatchet secret)).Bounded) :
    (h.next (.newRatchet secret)).Matches f
      { m with current := .derived f (m.ratchetInput f secret), index := m.index + 1 } := by
  have hinput := hm.input_concat_eq secret
  refine ⟨?_, ?_, ?_, ?_⟩
  · rw [toNat_add_one (hm.index_add_one_lt hb), hm.index, RatchetHistory.next, List.length_append]
    rfl
  · exact (root_of_input hinput).symm
  · intro c
    have hstart := startKey_of_input (h := h.next (.newRatchet secret)) hinput c
    unfold chainKey
    rw [hstart]
    cases c <;> rfl
  · intro c
    cases c <;> rfl

theorem nextMessageKeys (hm : h.Matches f m) {chain : Chain}
    (hb : (h.next (.nextMessageKeys chain)).Bounded) :
    (h.next (.nextMessageKeys chain)).Matches f
      { m with current := m.current.setChain ((m.current.chain chain).next f) chain } := by
  refine ⟨hm.index, ?_, ?_, ?_⟩
  · rw [RatchetKeys.root_setChain]
    exact hm.root
  · intro c
    rw [RatchetKeys.chain_setChain]
    by_cases hc : c = chain
    · subst hc
      simp only [ChainKey.next, hm.key, chainKey, startKey, RatchetHistory.next, if_true,
        Nat.repeat]
      rfl
    · simp only [if_neg hc, hm.key, chainKey, startKey, RatchetHistory.next]
  · intro c
    rw [RatchetKeys.chain_setChain]
    by_cases hc : c = chain
    · subst hc
      simp only [RatchetHistory.next, if_true]
      rw [← hm.messageId c]
      exact toNat_add_one (hm.messageId_add_one_lt hb)
    · simp only [if_neg hc, hm.messageId, RatchetHistory.next]

theorem messageKeys_eq (hm : h.Matches f m) (c : Chain) :
    (m.current.chain c).messageKeys f = h.messageKeys f c := by
  unfold ChainKey.messageKeys RatchetHistory.messageKeys
  rw [hm.key, ← hm.messageId, UInt32.ofNat_toNat]

end Matches

end RatchetHistory

namespace KeyManager
open RatchetHistory

variable {σ : Type} {d : Derivation σ} {f : Query → (n : Nat) → Block n} {h : RatchetHistory}
  {m : KeyManager}

theorem step_newRatchet (hd : d.Computes f) (hm : h.Matches f m) {secret : Bytes}
    (hb : (h.next (.newRatchet secret)).Bounded) (s : σ) :
    (step d (.newRatchet secret) (m, s)).1 = .ok .done ∧
      (h.next (.newRatchet secret)).Matches f (step d (.newRatchet secret) (m, s)).2.1 := by
  have hlimit := hm.index_add_one_lt hb
  obtain ⟨hanswer, hmanager⟩ := step_newRatchet_of_room hd secret (Nat.ne_of_lt hlimit) s
  rw [hmanager]
  exact ⟨hanswer, hm.newRatchet hb⟩

theorem step_nextMessageKeys (hd : d.Computes f) (hm : h.Matches f m) {c : Chain}
    (hb : (h.next (.nextMessageKeys c)).Bounded) (s : σ) :
    (step d (.nextMessageKeys c) (m, s)).1 = .ok (.messageKeys (h.messageKeys f c)) ∧
      (h.next (.nextMessageKeys c)).Matches f (step d (.nextMessageKeys c) (m, s)).2.1 := by
  have hlimit := hm.messageId_add_one_lt hb
  obtain ⟨hanswer, hmanager⟩ := step_nextMessageKeys_of_room hd (Nat.ne_of_lt hlimit) s
  rw [hanswer, hmanager, hm.messageKeys_eq]
  exact ⟨rfl, hm.nextMessageKeys hb⟩

theorem step_matches (hd : d.Computes f) (hm : h.Matches f m) {op : Operation}
    (hb : (h.next op).Bounded) (s : σ) : (h.next op).Matches f (step d op (m, s)).2.1 := by
  cases op with
  | generateKeys entropy =>
    exact hm.of_ratchet_eq (step_preserves ((preserves_ratchet_generateKeys entropy).map _) (m, s))
  | setTheirKeys point value =>
    exact hm.of_ratchet_eq
      (step_preserves ((preserves_ratchet_setTheirKeys point value).map _) (m, s))
  | deriveSharedSecret =>
    exact hm.of_ratchet_eq (step_preserves ((preserves_ratchet_deriveSharedSecret d).map _) (m, s))
  | newRatchet secret => exact (step_newRatchet hd hm hb s).2
  | nextMessageKeys c => exact (step_nextMessageKeys hd hm hb s).2
  | destroy =>
    rw [step_destroy]
    exact .new

theorem run_matches (hd : d.Computes f) (hm : h.Matches f m) {ops : List Operation}
    (hops : ∀ k, (h.after (ops.take k)).Bounded) (s : σ) :
    (h.after ops).Matches f (run d ops (m, s)).2.1 := by
  induction ops generalizing h m s with
  | nil => exact hm
  | cons op ops ih =>
    have hstep := step_matches hd hm (hops 1) s
    exact ih hstep (fun k => hops (k + 1)) (step d op (m, s)).2.2

/-- The state in which the operation at one place of a run is performed, told by the operations
before it. -/
theorem matches_take (hd : d.Computes f) {ops : List Operation} (hops : WithinLimits ops) (s : σ)
    (i : Nat) : (of (ops.take i)).Matches f (run d (ops.take i) (new, s)).2.1 := by
  refine run_matches hd .new (fun k => ?_) s
  rw [List.take_take]
  exact hops (min k i)

theorem bounded_next {ops : List Operation} (hops : WithinLimits ops) {i : Nat} {op : Operation}
    (hi : ops[i]? = some op) : ((of (ops.take i)).next op).Bounded := by
  have hprefix := hops (i + 1)
  rw [List.take_add_one, hi] at hprefix
  rwa [of, Option.toList_some, after_concat] at hprefix

/-- The ratchet that a run leaves behind, and what each ratchet step and each draw in it returned. -/
theorem run_new_closedForm (d : Derivation σ) (f : Query → (n : Nat) → Block n)
    (hd : d.Computes f) (ops : List Operation) (hops : WithinLimits ops) (s : σ) :
    let r := run d ops (new, s)
    let h := RatchetHistory.of ops
    r.2.1.index.toNat = h.secrets.length ∧
      r.2.1.current.root = h.root f ∧
      (∀ c, (r.2.1.current.chain c).key = h.chainKey f c ∧
        (r.2.1.current.chain c).messageId.toNat = h.draws c) ∧
      (∀ (i : Nat) secret, ops[i]? = some (.newRatchet secret) → r.1[i]? = some (.ok .done)) ∧
      ∀ (i : Nat) c, ops[i]? = some (.nextMessageKeys c) →
        r.1[i]? = some (.ok (.messageKeys ((RatchetHistory.of (ops.take i)).messageKeys f c))) := by
  intro r h
  have hm : h.Matches f r.2.1 := by
    have htake := matches_take hd hops s ops.length
    rwa [List.take_length] at htake
  refine ⟨hm.index, hm.root, fun c => ⟨hm.key c, hm.messageId c⟩, ?_, ?_⟩
  · intro i secret hi
    rw [run_getElem?, hi]
    exact congrArg some (step_newRatchet hd (matches_take hd hops s i) (bounded_next hops hi) _).1
  · intro i c hi
    rw [run_getElem?, hi]
    exact congrArg some
      (step_nextMessageKeys hd (matches_take hd hops s i) (bounded_next hops hi) _).1

/-- A draw without a ratchet step, a cleared manager, then two ratchet steps and draws on both
chains, with a key generation that fails in between. -/
def sampleRun : List Operation :=
  [.nextMessageKeys .b, .newRatchet [1], .deriveSharedSecret, .destroy, .newRatchet [2],
    .nextMessageKeys .a, .newRatchet [3, 4], .nextMessageKeys .a, .generateKeys [],
    .nextMessageKeys .b, .nextMessageKeys .a]

theorem root_of_sampleRun (f : Query → (n : Nat) → Block n) :
    (RatchetHistory.of sampleRun).root f =
      f (Usage.rootKey.query (mix f [2] [3, 4])) rootKeySize := rfl

theorem chainKey_of_sampleRun (f : Query → (n : Nat) → Block n) :
    (RatchetHistory.of (sampleRun.take 10)).chainKey f .a =
      advance f (f (Usage.chainKeyA.query (mix f [2] [3, 4])) chainKeySize) := rfl

theorem run_new_closedForm_sampleRun : WithinLimits sampleRun ∧
    (let r := run (Derivation.shake : Derivation Unit) sampleRun (new, ())
    let x := mix Query.shake [2] [3, 4]
    let key := advance Query.shake (Query.shake (Usage.chainKeyA.query x) chainKeySize)
    r.2.1.index.toNat = 2 ∧
      r.2.1.current.root = Query.shake (Usage.rootKey.query x) rootKeySize ∧
      (r.2.1.current.chain .a).messageId.toNat = 2 ∧
      r.1[6]? = some (.ok .done) ∧
      r.1[10]? = some (.ok (.messageKeys
        ⟨Query.shake (Usage.messageKey.query key.toList) messageKeySize,
          Query.shake (Usage.macKey.query key.toList) macKeySize, 1⟩))) := by
  have hlimits : WithinLimits sampleRun := withinLimits_of_length_lt (by decide)
  obtain ⟨hindex, hroot, hchain, hratchet, hdraw⟩ :=
    run_new_closedForm .shake Query.shake Derivation.computes_shake sampleRun hlimits ()
  refine ⟨hlimits, hindex, hroot.trans (root_of_sampleRun _), (hchain .a).2,
    hratchet 6 [3, 4] rfl, ?_⟩
  rw [hdraw 10 .a rfl, messageKeys, chainKey_of_sampleRun]
  rfl

end KeyManager

end DeniableHandshake
