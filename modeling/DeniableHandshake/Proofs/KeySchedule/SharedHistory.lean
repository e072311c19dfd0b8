import DeniableHandshake.Proofs.KeySchedule.ClosedForm

/-!
# Managers on the same ratchet step

The secrets of the ratchet steps fix the index, the root key and all message keys of the current step.
Draws move a manager along the chains of that step, each manager in its own order; a message key is
told by its chain and its number.
-/
namespace DeniableHandshake

variable {σ : Type} {d : Derivation σ} {f : Query → (n : Nat) → Block n} {m m' : KeyManager}
  {secrets : List Bytes}

/-- The message keys with a number, on a chain of the ratchet step that the secrets lead to. -/
def RatchetHistory.keysAt (f : Query → (n : Nat) → Block n) (secrets : List Bytes) (c : Chain)
    (messageId : UInt32) : MessageKeys :=
  (RatchetHistory.mk secrets fun _ => messageId.toNat).messageKeys f c

namespace KeyManager
open RatchetHistory Session

/-! ### Counters at their limit -/

theorem step_newRatchet_of_limit (d : Derivation σ) (hm : m.index.toNat + 1 = UInt32.size)
    (secret : Bytes) (s : σ) : step d (.newRatchet secret) (m, s) =
      (.error (.derivation "ratchet index overflow"), m, s) := by
  have hmanager : (manager : Session σ KeyManager) (m, s) = .ok m (m, s) := rfl
  have hsession : newRatchet d secret (m, s) =
      .error (.derivation "ratchet index overflow") (m, s) := by
    unfold newRatchet
    apply (bind_of_ok hmanager).trans
    dsimp only
    rw [if_pos hm]
    rfl
  simp only [step, perform, map_eq_pure_bind, bind_of_error hsession]

theorem step_nextMessageKeys_of_limit (d : Derivation σ) {c : Chain}
    (hm : (m.current.chain c).messageId.toNat + 1 = UInt32.size) (s : σ) :
    step d (.nextMessageKeys c) (m, s) = (.error (.counterOverflow c), m, s) := by
  have hmanager : (manager : Session σ KeyManager) (m, s) = .ok m (m, s) := rfl
  have hsession : nextMessageKeys d c (m, s) = .error (.counterOverflow c) (m, s) := by
    unfold nextMessageKeys
    apply (bind_of_ok hmanager).trans
    dsimp only
    rw [if_pos hm]
    rfl
  simp only [step, perform, map_eq_pure_bind, bind_of_error hsession]

/-! ### The ratchet step of a list of secrets -/

/-- The manager is on the ratchet step that the secrets lead to, anywhere on its chains. -/
def Follows (f : Query → (n : Nat) → Block n) (secrets : List Bytes) (m : KeyManager) : Prop :=
  ∃ draws, (RatchetHistory.mk secrets draws).Matches f m

namespace Follows

theorem new : Follows f [] .new := ⟨fun _ => 0, .new⟩

theorem of_ratchet_eq (h : m.Follows f secrets) (he : m'.ratchet = m.ratchet) :
    m'.Follows f secrets := by
  obtain ⟨draws, hm⟩ := h
  exact ⟨draws, hm.of_ratchet_eq he⟩

theorem index_toNat (h : m.Follows f secrets) : m.index.toNat = secrets.length := by
  obtain ⟨draws, hm⟩ := h
  exact hm.index

theorem index_eq (h : m.Follows f secrets) (h' : m'.Follows f secrets) : m.index = m'.index := by
  apply UInt32.toNat_inj.mp
  rw [h.index_toNat, h'.index_toNat]

theorem root_eq (h : m.Follows f secrets) (h' : m'.Follows f secrets) :
    m.current.root = m'.current.root := by
  obtain ⟨draws, hm⟩ := h
  obtain ⟨draws', hm'⟩ := h'
  rw [hm.root, hm'.root]
  rfl

theorem length_lt (h : m.Follows f secrets) : secrets.length < UInt32.size := by
  rw [← h.index_toNat]
  exact m.index.toNat_lt

/-- Two managers that follow beginnings of the same secrets and have the same index are on the same
step. -/
theorem secrets_eq {all secrets' : List Bytes} (h : m.Follows f secrets) (h' : m'.Follows f secrets')
    (hall : secrets <+: all) (hall' : secrets' <+: all) (hindex : m.index = m'.index) :
    secrets = secrets' := by
  have hlength : secrets.length = secrets'.length := by
    rw [← h.index_toNat, ← h'.index_toNat, hindex]
  have hprefix := List.prefix_of_prefix_length_le hall hall' (Nat.le_of_eq hlength)
  exact hprefix.eq_of_length hlength

/-! ### Ratchet steps and draws -/

theorem newRatchet (hd : d.Computes f) (h : m.Follows f secrets)
    (hroom : secrets.length + 1 < UInt32.size) (secret : Bytes) (s : σ) :
    (step d (.newRatchet secret) (m, s)).1 = .ok .done ∧
      (step d (.newRatchet secret) (m, s)).2.1.Follows f (secrets ++ [secret]) := by
  obtain ⟨draws, hm⟩ := h
  have hb : ((RatchetHistory.mk secrets draws).next (.newRatchet secret)).Bounded := by
    constructor
    · rw [RatchetHistory.next, List.length_append, List.length_singleton]
      exact hroom
    · intro c
      exact Nat.two_pow_pos 32
  obtain ⟨hanswer, hnext⟩ := step_newRatchet hd hm hb s
  exact ⟨hanswer, _, hnext⟩

/-- A draw stays on the step, and the keys that it gives are the ones with their number. -/
theorem nextMessageKeys (hd : d.Computes f) (h : m.Follows f secrets) (c : Chain) (s : σ) :
    (step d (.nextMessageKeys c) (m, s)).2.1.Follows f secrets ∧
      ∀ k, (step d (.nextMessageKeys c) (m, s)).1 = .ok (.messageKeys k) →
        k = keysAt f secrets c k.messageId := by
  have hlength := h.length_lt
  obtain ⟨draws, hm⟩ := h
  have hmessage (c' : Chain) : (m.current.chain c').messageId.toNat = draws c' := hm.messageId c'
  have hdraws (c' : Chain) : draws c' < UInt32.size := by
    rw [← hmessage c']
    exact UInt32.toNat_lt _
  by_cases hlimit : (m.current.chain c).messageId.toNat + 1 = UInt32.size
  · rw [step_nextMessageKeys_of_limit d hlimit s]
    refine ⟨⟨draws, hm⟩, ?_⟩
    intro k hk
    cases hk
  · have hb : ((RatchetHistory.mk secrets draws).next (.nextMessageKeys c)).Bounded := by
      refine ⟨hlength, ?_⟩
      intro c'
      have hc := hdraws c'
      rw [hmessage c] at hlimit
      simp only [RatchetHistory.next]
      by_cases hsame : c' = c
      · subst hsame
        rw [if_pos rfl]
        omega
      · rw [if_neg hsame]
        exact hc
    obtain ⟨hanswer, hnext⟩ := step_nextMessageKeys hd hm hb s
    refine ⟨⟨_, hnext⟩, ?_⟩
    intro k hk
    rw [hanswer] at hk
    cases hk
    have hnumber : (UInt32.ofNat (draws c)).toNat = draws c := UInt32.toNat_ofNat_of_lt' (hdraws c)
    simp only [keysAt, messageKeys, chainKey, hnumber]
    rfl

end Follows

end KeyManager

end DeniableHandshake
