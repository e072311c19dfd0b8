import DeniableHandshake.Proofs.KeySchedule.Accounts

/-!
# A ratchet state binds its history

Two managers that took as many ratchet steps and share the root key, or the key of a chain with its
counter, were given the same secrets, or their queries collide: the chain is followed back to its
start, the start to the input of the step, and the input to the secret and the step before.
-/
namespace DeniableHandshake
open Session

variable {σ : Type} {d : Derivation σ} {f : Query → (n : Nat) → Block n} {m m' : KeyManager}
  {l l' : List Response} {s : σ} {h h' : RatchetHistory}

namespace RatchetHistory

/-- The ratchet of the manager is in the state that the history tells, and the record accounts for all
steps of the history. -/
structure Accounted (f : Query → (n : Nat) → Block n) (h : RatchetHistory) (m : KeyManager)
    (l : List Response) : Prop where
  index : m.index.toNat = h.secrets.length
  holds : ∀ x, input f h.secrets = some x → RatchetStep.Holds f x h.draws m.current l
  recorded : Recorded f h.secrets l

namespace Accounted

theorem empty (hm : m.index = 0) : RatchetHistory.empty.Accounted f m l := by
  refine ⟨congrArg UInt32.toNat hm, nofun, ?_, ?_⟩
  · intro before x hbefore hx
    rw [List.prefix_nil.mp hbefore] at hx
    cases hx
  · intro before x secret hbefore hx
    cases before <;> cases List.prefix_nil.mp hbefore

theorem of_ratchet_eq (ha : h.Accounted f m l) (he : m'.ratchet = m.ratchet) (hl : l ⊆ l') :
    h.Accounted f m' l' := by
  obtain ⟨hindex, hcurrent⟩ := Prod.mk.inj he
  exact ⟨hindex ▸ ha.index, fun x hx => hcurrent ▸ (ha.holds x hx).mono hl, ha.recorded.mono hl⟩

theorem index_eq_zero_iff (ha : h.Accounted f m l) : m.index = 0 ↔ h.secrets = [] := by
  rw [← UInt32.toNat_inj, ha.index]
  exact List.length_eq_zero_iff

theorem input_concat_eq (ha : h.Accounted f m l) (secret : Bytes) :
    input f (h.secrets ++ [secret]) = some (m.ratchetInput f secret) := by
  rw [input_concat, KeyManager.ratchetInput]
  by_cases hfirst : h.secrets = []
  · rw [hfirst, if_pos (ha.index_eq_zero_iff.mpr hfirst)]
    rfl
  · obtain ⟨x, hx⟩ := exists_input (f := f) hfirst
    rw [if_neg (mt ha.index_eq_zero_iff.mp hfirst), hx, (ha.holds x hx).root]
    rfl

theorem newRatchet (ha : h.Accounted f m l) {secret : Bytes}
    (hroom : m.index.toNat + 1 < UInt32.size) :
    (h.next (.newRatchet secret)).Accounted f
      { m with current := .derived f (m.ratchetInput f secret), index := m.index + 1 }
      (l ++ m.ratchetResponses f secret) := by
  have hinput := ha.input_concat_eq secret
  have hgrow : l ⊆ l ++ m.ratchetResponses f secret := List.subset_append_left _ _
  have hkeys : KeyManager.keyResponses f (m.ratchetInput f secret) ⊆ l ++ m.ratchetResponses f secret :=
    fun r hr => List.mem_append_right l (List.mem_append_right _ hr)
  refine ⟨?_, ?_, ?_, ?_⟩
  · rw [toNat_add_one hroom, ha.index, RatchetHistory.next, List.length_append]
    rfl
  · intro x hx
    obtain rfl := Option.some.inj (hinput.symm.trans hx)
    exact .start hkeys
  · intro before x hbefore hx
    obtain rfl | hold := List.prefix_concat_iff.mp hbefore
    · obtain rfl := Option.some.inj (hinput.symm.trans hx)
      exact hkeys List.mem_cons_self
    · exact hgrow (ha.recorded.root before x hold hx)
  · intro before x secret' hbefore hx
    obtain hlast | hold := List.prefix_concat_iff.mp hbefore
    · obtain ⟨rfl, hsecret⟩ := List.append_inj' hlast rfl
      obtain rfl := List.singleton_inj.mp hsecret
      have hlater : h.secrets ≠ [] := by
        intro hfirst
        rw [hfirst] at hx
        cases hx
      rw [KeyManager.ratchetResponses, if_neg (mt ha.index_eq_zero_iff.mp hlater), (ha.holds x hx).root]
      exact List.mem_append_right l List.mem_cons_self
    · exact hgrow (ha.recorded.mixed before x secret' hold hx)

theorem nextMessageKeys (ha : h.Accounted f m l) {c : Chain}
    (hroom : (m.current.chain c).messageId.toNat + 1 < UInt32.size) :
    (h.next (.nextMessageKeys c)).Accounted f
      { m with current := m.current.setChain ((m.current.chain c).next f) c }
      (l ++ KeyManager.drawResponses f (m.current.chain c)) := by
  have hgrow : l ⊆ l ++ KeyManager.drawResponses f (m.current.chain c) := List.subset_append_left _ _
  refine ⟨ha.index, ?_, ha.recorded.mono hgrow⟩
  intro x hx
  exact (ha.holds x hx).draw hroom (List.subset_append_right _ _) hgrow

end Accounted

/-- Histories of the same length behind equal root keys, or behind equal chain keys at equal places,
have the same secrets, or responses collide. -/
theorem secrets_eq_of_holds (ha : h.Accounted f m l) (ha' : h'.Accounted f m' l')
    (hlength : h.secrets.length = h'.secrets.length)
    (hkeys : m.current.root = m'.current.root ∨
      ∃ c, m.current.chain c = m'.current.chain c) :
    h.secrets = h'.secrets ∨ ∃ keyed, Collision keyed l l' := by
  by_cases hfirst : h.secrets = []
  · rw [hfirst, List.length_nil, eq_comm, List.length_eq_zero_iff] at hlength
    exact .inl (hfirst.trans hlength.symm)
  have hfirst' : h'.secrets ≠ [] := by
    rwa [← List.length_pos_iff, ← hlength, List.length_pos_iff]
  obtain ⟨x, hx⟩ := exists_input (f := f) hfirst
  obtain ⟨x', hx'⟩ := exists_input (f := f) hfirst'
  have hm := ha.holds x hx
  have hm' := ha'.holds x' hx'
  have hinputs : x = x' ∨ Collision false l l' := by
    obtain hroots | ⟨c, hchains⟩ := hkeys
    · rw [hm.root, hm'.root] at hroots
      have hquery := query_eq_or_collision (by decide) (isKeyed_query _ x) (isKeyed_query _ x')
        hm.rootResponse hm'.rootResponse hroots
      exact hquery.imp_left fun hsame => (usage_query_inj.mp hsame).2
    · have hkey := congrArg ChainKey.key hchains
      rw [hm.key, hm'.key] at hkey
      have hplace := RatchetStep.place_eq_or_collision (hm.keyResponses c) (hm'.keyResponses c) hkey
      exact hplace.imp_left And.left
  obtain rfl | hcollision := hinputs
  · exact secrets_eq_or_collision ha.recorded ha'.recorded hlength (hx.trans hx'.symm)
  · exact .inr ⟨false, hcollision⟩

end RatchetHistory

namespace KeyManager
open RatchetHistory

theorem step_accounted (hd : d.AgreesWith f) (ha : h.Accounted f m l) {op : Operation} {a : Answer}
    (hok : (step d.recorded op (m, s, l)).1 = .ok a) :
    (h.next op).Accounted f (step d.recorded op (m, s, l)).2.1
      (step d.recorded op (m, s, l)).2.2.2 := by
  have hgrow := record_subset_step (d := d) op m s l
  cases op with
  | generateKeys _ | setTheirKeys _ _ | deriveSharedSecret =>
    exact ha.of_ratchet_eq (ratchet_step_of_isExchange d.recorded rfl (m, s, l)) hgrow
  | newRatchet secret =>
    obtain ⟨hroom, hmanager, hrecord⟩ := step_newRatchet_of_ok hd hok
    rw [hmanager, hrecord]
    exact ha.newRatchet hroom
  | nextMessageKeys c =>
    obtain ⟨hroom, -, hmanager, hrecord⟩ := step_nextMessageKeys_of_ok hd hok
    rw [hmanager, hrecord]
    exact ha.nextMessageKeys hroom
  | destroy =>
    rw [step_destroy]
    exact .empty rfl

theorem run_accounted (hd : d.AgreesWith f) (ha : h.Accounted f m l) (ops : List Operation) (s : σ) :
    (h.after (effective d.recorded ops (m, s, l))).Accounted f (run d.recorded ops (m, s, l)).2.1
      (run d.recorded ops (m, s, l)).2.2.2 := by
  induction ops generalizing h m s l with
  | nil => exact ha
  | cons op ops ih =>
    cases hs : (step d.recorded op (m, s, l)).1 with
    | ok a =>
      rw [effective_cons_of_ok hs]
      exact ih (step_accounted hd ha hs) _
    | error e =>
      rw [effective_cons_of_error hs]
      have hm : (step d.recorded op (m, s, l)).2.1 = m := step_of_error hs
      have hsame : (step d.recorded op (m, s, l)).2.1.ratchet = m.ratchet := by rw [hm]
      exact ih (ha.of_ratchet_eq hsame (record_subset_step op m s l)) _

/-- What a manager and the record of its run hold, by the operations that did not fail. -/
theorem accounted_of_run (hd : d.AgreesWith f) (ops : List Operation) (s : σ) :
    (RatchetHistory.of (effective d ops (new, s))).Accounted f (run d ops (new, s)).2.1
      (responses d ops (new, s)) := by
  have hrun := run_accounted hd (.empty rfl : RatchetHistory.empty.Accounted f new []) ops s
  have hmanager : (run d.recorded ops (new, s, [])).2.1 = (run d ops (new, s)).2.1 := by
    obtain ⟨more, hmore, -⟩ := run_recorded d ops new s []
    rw [hmore]
  rw [effective_recorded, hmanager] at hrun
  exact hrun

/-- Two managers that took as many ratchet steps since they were new or cleared and agree on the root
key, or on a chain key and its counter, were given the same secrets, or their queries collide. If the
derivation is the hash, the collision is one of the hash. -/
theorem secrets_eq_or_responses_collide (hd : d.AgreesWith f) (ops ops' : List Operation) (s s' : σ) :
    let m := (run d ops (new, s)).2.1
    let m' := (run d ops' (new, s')).2.1
    let secrets := (RatchetHistory.of (effective d ops (new, s))).secrets
    let secrets' := (RatchetHistory.of (effective d ops' (new, s'))).secrets
    (secrets.length = secrets'.length →
      (m.current.root = m'.current.root ∨ ∃ c, m.current.chain c = m'.current.chain c) →
      secrets = secrets' ∨
        ∃ r ∈ responses d ops (new, s), ∃ r' ∈ responses d ops' (new, s'), r.Collides r') ∧
    (f = Query.shake → ∀ r ∈ responses d ops (new, s), ∀ r' ∈ responses d ops' (new, s'),
      r.Collides r' → r.HashesAlike r') := by
  intro m m' secrets secrets'
  constructor
  · intro hlength hkeys
    obtain hsecrets | ⟨keyed, r, hr, r', hr', -, hcollides⟩ :=
      secrets_eq_of_holds (accounted_of_run hd ops s) (accounted_of_run hd ops' s') hlength hkeys
    · exact .inl hsecrets
    · exact .inr ⟨r, hr, r', hr', hcollides⟩
  · rintro rfl r hr r' hr' hcollides
    exact hcollides.hashesAlike hd (genuine_of_mem_responses hr) (genuine_of_mem_responses hr')

/-- The second secrets differ, the last chain keys and counters do not. -/
theorem secrets_eq_or_responses_collide_zero :
    let d : Derivation Unit := .ofFunction Query.zero
    let ops : List Operation := [.newRatchet [1], .nextMessageKeys .b, .newRatchet [2],
      .nextMessageKeys .a]
    let ops' : List Operation := [.newRatchet [1], .newRatchet [3, 4], .nextMessageKeys .a]
    d.AgreesWith Query.zero ∧
      (run d ops (new, ())).2.1.current.chain .a = (run d ops' (new, ())).2.1.current.chain .a ∧
      ∃ r ∈ responses d ops (new, ()), ∃ r' ∈ responses d ops' (new, ()), r.Collides r' := by
  intro d ops ops'
  have hd : d.AgreesWith Query.zero := (Derivation.computes_ofFunction Query.zero).agreesWith
  have hchains : (run d ops (new, ())).2.1.current.chain .a =
      (run d ops' (new, ())).2.1.current.chain .a := by decide +kernel
  have hlength : (RatchetHistory.of (effective d ops (new, ()))).secrets.length =
      (RatchetHistory.of (effective d ops' (new, ()))).secrets.length := by decide +kernel
  have hsecrets : (RatchetHistory.of (effective d ops (new, ()))).secrets ≠
      (RatchetHistory.of (effective d ops' (new, ()))).secrets := by decide +kernel
  have hbinds := (secrets_eq_or_responses_collide hd ops ops' () ()).1 hlength (.inr ⟨.a, hchains⟩)
  exact ⟨hd, hchains, hbinds.resolve_left hsecrets⟩

end KeyManager

end DeniableHandshake
