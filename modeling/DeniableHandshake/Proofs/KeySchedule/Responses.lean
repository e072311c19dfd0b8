import DeniableHandshake.Proofs.KeySchedule.Lockstep

/-!
# The record of a run's queries

A derivation can keep a record of the queries that it answered, each with its answer. The record
changes nothing else: a run with it has the same outcomes and leaves the same manager, and the record
only grows, also in an operation that fails. Every query in it is tagged or keyed by a whole root key.
-/
namespace DeniableHandshake

/-- A query that was answered. -/
structure Response where
  query : Query
  answer : Bytes
  deriving DecidableEq

/-- Nothing but a root key is ever mixed with a secret. -/
def Query.KeyedByRoot : Query → Prop
  | .tagged _ _ => True
  | .keyed key _ => key.length = rootKeySize

namespace Derivation
variable {σ : Type}

/-- The same derivation with a record of its responses, the oldest one first. -/
def recorded (d : Derivation σ) : Derivation (σ × List Response) where
  answer q n s :=
    match d.answer q n s.1 with
    | (.ok b, t) => (.ok b, t, s.2 ++ [⟨q, b.toList⟩])
    | (.error r, t) => (.error r, t, s.2)

theorem Computes.recorded {d : Derivation σ} {f : Query → (n : Nat) → Block n} (hd : d.Computes f) :
    d.recorded.Computes f := by
  intro q n s
  have hq := hd q n s.1
  unfold Derivation.recorded
  rcases h : d.answer q n s.1 with ⟨r, t⟩
  rw [h] at hq
  obtain rfl := hq
  simp only [h]

/-- Every answer is the value of a function of the query and the length. The derivation may fail. -/
def AgreesWith (d : Derivation σ) (f : Query → (n : Nat) → Block n) : Prop :=
  ∀ q n s b, (d.answer q n s).1 = .ok b → b = f q n

theorem Computes.agreesWith {d : Derivation σ} {f : Query → (n : Nat) → Block n}
    (hd : d.Computes f) : d.AgreesWith f := by
  intro q n s b h
  rw [hd q n s] at h
  exact (Except.ok.inj h).symm

/-- The derivation gives this response in some state. -/
def Gives (d : Derivation σ) (r : Response) : Prop :=
  ∃ n s b, (d.answer r.query n s).1 = .ok b ∧ r.answer = b.toList

theorem AgreesWith.answer_eq {d : Derivation σ} {f : Query → (n : Nat) → Block n}
    (hd : d.AgreesWith f) {r : Response} (hr : d.Gives r) :
    r.answer = (f r.query r.answer.length).toList := by
  obtain ⟨n, s, b, hb, hanswer⟩ := hr
  have hn : r.answer.length = n := by rw [hanswer, b.length_toList]
  rw [hn, hanswer, hd _ _ _ _ hb]

end Derivation

namespace Session
variable {σ α : Type} {d : Derivation σ}

/-- The result of a session, with a record in the state. -/
def withRecord (l : List Response) : EStateM.Result KeyError (KeyManager × σ) α →
    EStateM.Result KeyError (KeyManager × σ × List Response) α
  | .ok a t => .ok a (t.1, t.2, l)
  | .error e t => .error e (t.1, t.2, l)

/-- The first session does what the second one does, and adds genuine responses to the record. -/
def Records (d : Derivation σ) (x : Session (σ × List Response) α) (y : Session σ α) : Prop :=
  ∀ m s l, ∃ new, x (m, s, l) = withRecord (l ++ new) (y (m, s)) ∧
    ∀ r ∈ new, r.query.KeyedByRoot ∧ d.Gives r

/-- The record has grown by genuine responses, and the derivation is in the state of the one without a
record. -/
def GrownFrom (d : Derivation σ) (l : List Response) (p : σ × List Response) (s : σ) : Prop :=
  p.1 = s ∧ ∃ new, p.2 = l ++ new ∧ ∀ r ∈ new, r.query.KeyedByRoot ∧ d.Gives r

theorem lockstep_ask_recorded (d : Derivation σ) (l : List Response) {q : Query} (hq : q.KeyedByRoot)
    (n : Nat) : Lockstep (GrownFrom d l) (ask d.recorded q n) (ask d q n) := by
  rintro m ⟨s, _⟩ _ ⟨rfl, new, rfl, hgenuine⟩
  unfold ask Derivation.recorded
  rcases h : d.answer q n s with ⟨r | b, t⟩
  · simp only [h]
    exact .error r.error m ⟨rfl, new, rfl, hgenuine⟩
  · simp only [h]
    refine .ok b m ⟨rfl, new ++ [⟨q, b.toList⟩], List.append_assoc .., ?_⟩
    intro r hr
    obtain hold | hlast := List.mem_append.mp hr
    · exact hgenuine r hold
    · obtain rfl := List.mem_singleton.mp hlast
      exact ⟨hq, n, s, b, congrArg Prod.fst h, rfl⟩

theorem records_of_lockstep {x : Session (σ × List Response) α} {y : Session σ α}
    (h : ∀ l, Lockstep (GrownFrom d l) x y) : Records d x y := by
  intro m s l
  have hend := h l m (s, l) s ⟨rfl, [], (List.append_nil l).symm, nofun⟩
  generalize x (m, s, l) = r at hend
  generalize y (m, s) = r' at hend
  cases hend with
  | ok a m₁ hgrown =>
    obtain ⟨rfl, new, hnew, hgenuine⟩ := hgrown
    exact ⟨new, by rw [← hnew]; rfl, hgenuine⟩
  | error e m₁ hgrown =>
    obtain ⟨rfl, new, hnew, hgenuine⟩ := hgrown
    exact ⟨new, by rw [← hnew]; rfl, hgenuine⟩

end Session

namespace KeyManager
open Session

variable {σ : Type} (d : Derivation σ)

theorem keyedByRoot_query (u : Usage) (secret : Bytes) : (u.query secret).KeyedByRoot := trivial

theorem asksAlike_recorded (l : List Response) : AsksAlike (GrownFrom d l) d.recorded d := by
  constructor
  · intro u secret n
    exact lockstep_ask_recorded d l (keyedByRoot_query u secret) n
  · intro root secret n
    have hroot : (Query.keyed root.toList secret).KeyedByRoot := root.length_toList
    exact lockstep_ask_recorded d l hroot n

theorem records_perform (op : Operation) : Records d (perform d.recorded op) (perform d op) :=
  records_of_lockstep fun l => lockstep_perform (asksAlike_recorded d l) op

/-! ### Runs with a record -/

/-- The responses of a run. -/
def responses (ops : List Operation) (s : KeyManager × σ) : List Response :=
  (run d.recorded ops (s.1, s.2, [])).2.2.2

theorem step_recorded (op : Operation) (m : KeyManager) (s : σ) (l : List Response) : ∃ new,
    step d.recorded op (m, s, l) = ((step d op (m, s)).1, (step d op (m, s)).2.1,
      (step d op (m, s)).2.2, l ++ new) ∧ ∀ r ∈ new, r.query.KeyedByRoot ∧ d.Gives r := by
  obtain ⟨new, hnew, hgenuine⟩ := records_perform d op m s l
  refine ⟨new, ?_, hgenuine⟩
  unfold step
  rw [hnew]
  cases perform d op (m, s) with
  | ok a t => rfl
  | error e t => rfl

/-- A run with a record is the run itself, and what it adds to the record are genuine responses. -/
theorem run_recorded (ops : List Operation) (m : KeyManager) (s : σ) (l : List Response) : ∃ new,
    run d.recorded ops (m, s, l) = ((run d ops (m, s)).1, (run d ops (m, s)).2.1,
      (run d ops (m, s)).2.2, l ++ new) ∧ ∀ r ∈ new, r.query.KeyedByRoot ∧ d.Gives r := by
  induction ops generalizing m s l with
  | nil =>
    refine ⟨[], ?_, nofun⟩
    rw [List.append_nil]
    rfl
  | cons op ops ih =>
    obtain ⟨new, hnew, hgenuine⟩ := step_recorded d op m s l
    obtain ⟨more, hmore, hgenuine'⟩ :=
      ih (step d op (m, s)).2.1 (step d op (m, s)).2.2 (l ++ new)
    refine ⟨new ++ more, ?_, ?_⟩
    · simp only [run, hnew, hmore, List.append_assoc]
    · intro r hr
      exact (List.mem_append.mp hr).elim (hgenuine r) (hgenuine' r)

variable {d}

theorem genuine_of_mem_responses {ops : List Operation} {s : KeyManager × σ} {r : Response}
    (hr : r ∈ responses d ops s) : r.query.KeyedByRoot ∧ d.Gives r := by
  obtain ⟨new, hnew, hgenuine⟩ := run_recorded d ops s.1 s.2 []
  rw [responses, hnew, List.nil_append] at hr
  exact hgenuine r hr

end KeyManager

end DeniableHandshake
