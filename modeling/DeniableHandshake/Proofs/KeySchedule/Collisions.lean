import DeniableHandshake.Proofs.KeySchedule.RatchetResponses
import Mathlib.Data.List.Induction

/-!
# Collisions among responses

Two responses collide if different queries of one kind have the same answer. A key of a ratchet step is
the answer to a query that its place on the chain and the key before it tell, so two equal keys have
the same place and the same input, or the responses behind them collide. In the same way two equal inputs
of a ratchet step come from the same secrets, or responses collide.
-/
namespace DeniableHandshake

def Query.isKeyed : Query → Bool
  | .tagged _ _ => false
  | .keyed _ _ => true

/-- Every answer is zero: any two queries of one kind and one length collide. -/
def Query.zero (_ : Query) (n : Nat) : Block n := .zero n

namespace Response

/-- Different queries, both tagged or both keyed, with the same answer of at least 32 bytes. -/
structure Collides (r r' : Response) : Prop where
  kind : r.query.isKeyed = r'.query.isKeyed
  query_ne : r.query ≠ r'.query
  answer_eq : r.answer = r'.answer
  long : 32 ≤ r.answer.length

/-- Different byte strings are hashed to the same answer. -/
structure HashesAlike (r r' : Response) : Prop where
  input_ne : r.query.input ≠ r'.query.input
  answer : (shake256 r.query.input r.answer.length).toList = r.answer
  answer' : (shake256 r'.query.input r.answer.length).toList = r.answer

end Response

/-- With whole root keys as keys, a query is told by its kind and the bytes that are hashed. -/
theorem Query.eq_of_input_eq {q q' : Query} (hkind : q.isKeyed = q'.isKeyed) (hq : q.KeyedByRoot)
    (hq' : q'.KeyedByRoot) (h : q.input = q'.input) : q = q' := by
  cases q with
  | tagged tag secret =>
    cases q' with
    | tagged tag' secret' =>
      obtain ⟨rfl, rfl⟩ := List.cons.inj h
      rfl
    | keyed key' secret' => cases hkind
  | keyed key secret =>
    cases q' with
    | tagged tag' secret' => cases hkind
    | keyed key' secret' =>
      have hlength : key.length = key'.length := Eq.trans hq (Eq.symm hq')
      obtain ⟨rfl, rfl⟩ := List.append_inj h hlength
      rfl

/-- Some response of the one record collides with one of the other. -/
def Collision (keyed : Bool) (l l' : List Response) : Prop :=
  ∃ r ∈ l, ∃ r' ∈ l', r.query.isKeyed = keyed ∧ r.Collides r'

variable {f : Query → (n : Nat) → Block n} {l l' : List Response}

/-- A derivation that agrees with the hash collides only where the hash does. -/
theorem Response.Collides.hashesAlike {σ : Type} {d : Derivation σ} (hd : d.AgreesWith Query.shake)
    {r r' : Response} (hr : r.query.KeyedByRoot ∧ d.Gives r) (hr' : r'.query.KeyedByRoot ∧ d.Gives r')
    (h : r.Collides r') : r.HashesAlike r' := by
  have hlength : r.answer.length = r'.answer.length := congrArg List.length h.answer_eq
  refine ⟨?_, (hd.answer_eq hr.2).symm, ?_⟩
  · intro hinput
    exact h.query_ne (Query.eq_of_input_eq h.kind hr.1 hr'.1 hinput)
  · rw [h.answer_eq]
    exact (hd.answer_eq hr'.2).symm

/-- Recorded queries of one kind with the same answer are the same query, or they collide. -/
theorem query_eq_or_collision {q q' : Query} {n : Nat} {keyed : Bool} (hn : 32 ≤ n)
    (hkind : q.isKeyed = keyed) (hkind' : q'.isKeyed = keyed) (hq : Response.of f q n ∈ l)
    (hq' : Response.of f q' n ∈ l') (h : f q n = f q' n) : q = q' ∨ Collision keyed l l' := by
  by_cases hsame : q = q'
  · exact .inl hsame
  · have hlong : 32 ≤ (f q n).toList.length := by
      rw [(f q n).length_toList]
      exact hn
    have hcollides : (Response.of f q n).Collides (.of f q' n) :=
      ⟨hkind.trans hkind'.symm, hsame, congrArg Block.toList h, hlong⟩
    exact .inr ⟨_, hq, _, hq', hkind, hcollides⟩

theorem isKeyed_query (u : Usage) (x : Bytes) : (u.query x).isKeyed = false := rfl

theorem isKeyed_keyed (key secret : Bytes) : (Query.keyed key secret).isKeyed = true := rfl

theorem usage_query_inj {u v : Usage} {x y : Bytes} : u.query x = v.query y ↔ u = v ∧ x = y := by
  unfold Usage.query
  rw [Query.tagged.injEq, Usage.tag_inj]

/-! ### Keys of a ratchet step -/

namespace RatchetStep

/-- The key at a place of a chain of the ratchet step with an input. -/
def keyAt (f : Query → (n : Nat) → Block n) (input : Bytes) (c : Chain) (i : Nat) :
    Block chainKeySize :=
  Nat.repeat (RatchetHistory.advance f) i (f (c.usage.query input) chainKeySize)

/-- The query whose answer is the key at a place of a chain. -/
def keyQuery (f : Query → (n : Nat) → Block n) (input : Bytes) (c : Chain) : Nat → Query
  | 0 => c.usage.query input
  | i + 1 => Usage.nextChainKey.query (keyAt f input c i).toList

theorem keyAt_eq (f : Query → (n : Nat) → Block n) (input : Bytes) (c : Chain) (i : Nat) :
    keyAt f input c i = f (keyQuery f input c i) chainKeySize := by
  cases i with
  | zero => rfl
  | succ i => rfl

theorem isKeyed_keyQuery (f : Query → (n : Nat) → Block n) (input : Bytes) (c : Chain) (i : Nat) :
    (keyQuery f input c i).isKeyed = false := by
  cases i with
  | zero => rfl
  | succ i => rfl

theorem chain_usage_inj {c c' : Chain} (h : c.usage = c'.usage) : c = c' := by
  cases c <;> cases c' <;> first | rfl | cases h

theorem chain_usage_ne (c : Chain) : c.usage ≠ .nextChainKey ∧ c.usage ≠ .rootKey := by
  cases c <;> exact ⟨nofun, nofun⟩

variable {x x' : Bytes} {c c' : Chain} {i i' : Nat}

/-- Equal chain keys have the same place in a step from the same input, or one of the queries that
lead to them collides with one of the others. -/
theorem place_eq_or_collision (hl : ∀ k ≤ i, Response.of f (keyQuery f x c k) chainKeySize ∈ l)
    (hl' : ∀ k ≤ i', Response.of f (keyQuery f x' c' k) chainKeySize ∈ l')
    (h : keyAt f x c i = keyAt f x' c' i') :
    (x = x' ∧ c = c' ∧ i = i') ∨ Collision false l l' := by
  induction i generalizing i' with
  | zero =>
    rw [keyAt_eq, keyAt_eq] at h
    obtain hsame | hcollision := query_eq_or_collision (by decide) (isKeyed_keyQuery f x c 0)
      (isKeyed_keyQuery f x' c' i') (hl 0 (Nat.le_refl 0)) (hl' i' (Nat.le_refl i')) h
    · left
      cases i' with
      | zero =>
        obtain ⟨husage, rfl⟩ := usage_query_inj.mp hsame
        exact ⟨rfl, chain_usage_inj husage, rfl⟩
      | succ i' =>
        -- the start of a chain and a later key are asked for under different tags
        exact absurd (usage_query_inj.mp hsame).1 (chain_usage_ne c).1
    · exact .inr hcollision
  | succ i ih =>
    have hquery := h
    rw [keyAt_eq, keyAt_eq] at hquery
    obtain hsame | hcollision := query_eq_or_collision (by decide) (isKeyed_keyQuery f x c (i + 1))
      (isKeyed_keyQuery f x' c' i') (hl (i + 1) (Nat.le_refl (i + 1))) (hl' i' (Nat.le_refl i'))
      hquery
    · cases i' with
      | zero => exact absurd (usage_query_inj.mp hsame).1.symm (chain_usage_ne c').1
      | succ i' =>
        have hbefore := Block.ext (usage_query_inj.mp hsame).2
        have hplace := ih (fun k hk => hl k (Nat.le_succ_of_le hk))
          (fun k hk => hl' k (Nat.le_succ_of_le hk)) hbefore
        exact hplace.imp_left fun ⟨hx, hc, hi⟩ => ⟨hx, hc, congrArg (· + 1) hi⟩
    · exact .inr hcollision

/-- The root key is no chain key of the same step, or responses collide. -/
theorem collision_of_root_eq (hroot : Response.of f (Usage.rootKey.query x) rootKeySize ∈ l)
    (hkey : Response.of f (keyQuery f x' c i) chainKeySize ∈ l')
    (h : f (Usage.rootKey.query x) rootKeySize = keyAt f x' c i) : Collision false l l' := by
  rw [keyAt_eq] at h
  have hquery := query_eq_or_collision (by decide) (isKeyed_query _ x) (isKeyed_keyQuery f x' c i)
    hroot hkey h
  refine hquery.resolve_left ?_
  intro hsame
  cases i with
  | zero => exact (chain_usage_ne c).2 (usage_query_inj.mp hsame).1.symm
  | succ i => cases (usage_query_inj.mp hsame).1

end RatchetStep

/-! ### Inputs of ratchet steps -/

namespace RatchetHistory

/-- The root keys of all steps and the mixing of every later secret are on the record. -/
structure Recorded (f : Query → (n : Nat) → Block n) (secrets : List Bytes) (l : List Response) :
    Prop where
  root : ∀ before x, before <+: secrets → input f before = some x →
    Response.of f (Usage.rootKey.query x) rootKeySize ∈ l
  mixed : ∀ before x secret, before ++ [secret] <+: secrets → input f before = some x →
    Response.of f (.keyed (f (Usage.rootKey.query x) rootKeySize).toList secret) sharedSecretSize ∈ l

variable {secrets secrets' : List Bytes}

theorem Recorded.of_prefix (h : Recorded f secrets l) (hearlier : secrets' <+: secrets) :
    Recorded f secrets' l :=
  ⟨fun before x hbefore => h.root before x (hbefore.trans hearlier),
    fun before x secret hbefore => h.mixed before x secret (hbefore.trans hearlier)⟩

theorem Recorded.mono (h : Recorded f secrets l) (hl : l ⊆ l') : Recorded f secrets l' :=
  ⟨fun before x hbefore hx => hl (h.root before x hbefore hx),
    fun before x secret hbefore hx => hl (h.mixed before x secret hbefore hx)⟩

theorem exists_input {secrets : List Bytes} (h : secrets ≠ []) : ∃ x, input f secrets = some x := by
  cases secrets with
  | nil => exact absurd rfl h
  | cons secret rest => exact ⟨_, rfl⟩

/-- A mixed input tells the input before it and the secret, or responses collide. -/
theorem mix_eq_or_collision {x x' secret secret' : Bytes}
    (hroot : Response.of f (Usage.rootKey.query x) rootKeySize ∈ l)
    (hroot' : Response.of f (Usage.rootKey.query x') rootKeySize ∈ l')
    (hmixed : Response.of f (.keyed (f (Usage.rootKey.query x) rootKeySize).toList secret)
      sharedSecretSize ∈ l)
    (hmixed' : Response.of f (.keyed (f (Usage.rootKey.query x') rootKeySize).toList secret')
      sharedSecretSize ∈ l')
    (h : mix f x secret = mix f x' secret') :
    (x = x' ∧ secret = secret') ∨ ∃ keyed, Collision keyed l l' := by
  have hanswer : f (.keyed (f (Usage.rootKey.query x) rootKeySize).toList secret) sharedSecretSize =
      f (.keyed (f (Usage.rootKey.query x') rootKeySize).toList secret') sharedSecretSize := Block.ext h
  obtain hsame | hcollision := query_eq_or_collision (by decide) (isKeyed_keyed _ _)
    (isKeyed_keyed _ _) hmixed hmixed' hanswer
  · obtain ⟨hkeys, rfl⟩ := Query.keyed.inj hsame
    obtain hinputs | hcollision :=
      query_eq_or_collision (by decide) (isKeyed_query _ x) (isKeyed_query _ x') hroot hroot'
        (Block.ext hkeys)
    · exact .inl ⟨(usage_query_inj.mp hinputs).2, rfl⟩
    · exact .inr ⟨_, hcollision⟩
  · exact .inr ⟨_, hcollision⟩

/-- As many secrets with the same last input are the same secrets, or responses collide. -/
theorem secrets_eq_or_collision (hl : Recorded f secrets l) (hl' : Recorded f secrets' l')
    (hlength : secrets.length = secrets'.length) (h : input f secrets = input f secrets') :
    secrets = secrets' ∨ ∃ keyed, Collision keyed l l' := by
  -- from the last secret back to the first
  induction secrets using List.reverseRecOn generalizing secrets' with
  | nil => exact .inl (List.length_eq_zero_iff.mp hlength.symm).symm
  | append_singleton before secret ih =>
    obtain rfl | ⟨before', secret', rfl⟩ := List.eq_nil_or_concat secrets'
    · simp at hlength
    rw [List.concat_eq_append] at hlength h hl' ⊢
    simp only [List.length_append, List.length_singleton, Nat.add_right_cancel_iff] at hlength
    rw [input_concat, input_concat] at h
    have hbefore := List.prefix_append before [secret]
    have hbefore' := List.prefix_append before' [secret']
    by_cases hfirst : before = []
    · have hfirst' : before' = [] := by
        rwa [hfirst, List.length_nil, eq_comm, List.length_eq_zero_iff] at hlength
      subst hfirst hfirst'
      exact .inl (congrArg ([] ++ [·]) (Option.some.inj h))
    · have hfirst' : before' ≠ [] := by
        rwa [← List.length_pos_iff, ← hlength, List.length_pos_iff]
      obtain ⟨x, hx⟩ := exists_input (f := f) hfirst
      obtain ⟨x', hx'⟩ := exists_input (f := f) hfirst'
      rw [hx, hx'] at h
      obtain ⟨rfl, rfl⟩ | hcollision := mix_eq_or_collision (hl.root before x hbefore hx)
        (hl'.root before' x' hbefore' hx') (hl.mixed before x secret List.prefix_rfl hx)
        (hl'.mixed before' x' secret' List.prefix_rfl hx') (Option.some.inj h)
      · have hsecrets := ih (hl.of_prefix hbefore) (hl'.of_prefix hbefore') hlength (hx.trans hx'.symm)
        exact hsecrets.imp_left (congrArg (· ++ [secret]))
      · exact .inr hcollision

end RatchetHistory

end DeniableHandshake
