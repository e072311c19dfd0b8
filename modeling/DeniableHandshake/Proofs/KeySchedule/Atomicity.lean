import DeniableHandshake.Proofs.KeySchedule.Operations

/-!
# Operations that fail change nothing

Each operation draws, checks and derives before it writes, and after it has written nothing can fail
any more. An operation that fails therefore leaves the manager as it found it, and a run can be
performed without its failed operations: the manager that is left and the outcomes of the others are
the same.
-/
namespace DeniableHandshake

namespace Session
variable {σ α β : Type}

/-- If the session fails, the manager is the one that it started from. -/
def Atomic (x : Session σ α) : Prop := ∀ s e t, x s = .error e t → t.1 = s.1

theorem atomic_throw (e : KeyError) : Atomic (throw e : Session σ α) := by
  intro s e' t h
  cases h
  rfl

theorem atomic_update (f : KeyManager → KeyManager) : Atomic (update f : Session σ Unit) := nofun

theorem Atomic.bind_pure {x : Session σ α} (hx : Atomic x) (g : α → β) :
    Atomic (x >>= fun a => pure (g a)) := by
  intro s e t h
  cases hs : x s with
  | ok a u =>
    rw [bind_of_ok hs] at h
    cases h
  | error e' u =>
    rw [bind_of_error hs] at h
    cases h
    exact hx s e t hs

theorem Atomic.map {x : Session σ α} (hx : Atomic x) (g : α → β) : Atomic (g <$> x) := by
  rw [map_eq_pure_bind]
  exact hx.bind_pure g

/-- A session that has written nothing yet can go on with one that is atomic. -/
theorem Preserves.bind_atomic {x : Session σ α} {f : α → Session σ β} (hx : Preserves id x)
    (hf : ∀ a, Atomic (f a)) : Atomic (x >>= f) := by
  intro s e t h
  have hs := hx s
  cases hx' : x s with
  | ok a u =>
    rw [after_of_ok hx'] at hs
    rw [bind_of_ok hx'] at h
    exact (hf a u e t h).trans hs
  | error e' u =>
    rw [after_of_error hx'] at hs
    rw [bind_of_error hx'] at h
    cases h
    exact hs

end Session

namespace KeyManager
open Session

variable {σ : Type}

theorem atomic_generateKeys (entropy : Entropy) : Atomic (generateKeys entropy : Session σ Unit) := by
  unfold generateKeys
  refine (preserves_ofExcept _).bind_atomic fun ⟨curve, rest⟩ => ?_
  refine (preserves_ofExcept _).bind_atomic fun ⟨group, _⟩ => ?_
  exact atomic_update _

theorem atomic_deriveSharedSecret (d : Derivation σ) : Atomic (deriveSharedSecret d) := by
  unfold deriveSharedSecret
  refine preserves_manager.bind_atomic fun m => ?_
  dsimp only
  simp only [throw_bind]
  split
  · exact atomic_throw _
  split
  · exact atomic_throw _
  split
  · exact atomic_throw _
  refine (preserves_ofExcept _).bind_atomic fun curve => ?_
  refine (preserves_ofExcept _).bind_atomic fun group => ?_
  refine (preserves_ask d _ _).bind_atomic fun brace => ?_
  refine (preserves_ask d _ _).bind_atomic fun secret => ?_
  exact (atomic_update _).bind_pure fun _ => secret

theorem atomic_newRatchet (d : Derivation σ) (secret : Bytes) : Atomic (newRatchet d secret) := by
  unfold newRatchet
  refine preserves_manager.bind_atomic fun m => ?_
  dsimp only
  simp only [throw_bind]
  split
  · exact atomic_throw _
  have hderived : ∀ input, Atomic (deriveRatchetKeys d input >>= fun keys =>
      update fun m => { m with current := keys, index := m.index + 1 }) :=
    fun input => (preserves_deriveRatchetKeys d input).bind_atomic fun keys => atomic_update _
  split
  · exact (preserves_pure secret).bind_atomic hderived
  · exact ((preserves_ask d _ _).map Block.toList).bind_atomic hderived

theorem atomic_nextMessageKeys (d : Derivation σ) (chain : Chain) :
    Atomic (nextMessageKeys d chain) := by
  unfold nextMessageKeys
  refine preserves_manager.bind_atomic fun m => ?_
  dsimp only
  simp only [throw_bind]
  split
  · exact atomic_throw _
  refine (preserves_ask d _ _).bind_atomic fun encryption => ?_
  refine (preserves_ask d _ _).bind_atomic fun mac => ?_
  refine (preserves_ask d _ _).bind_atomic fun next => ?_
  exact (atomic_update _).bind_pure _

theorem atomic_perform (d : Derivation σ) (op : Operation) : Atomic (perform d op) := by
  cases op with
  | generateKeys entropy => exact (atomic_generateKeys entropy).map _
  | setTheirKeys point value => exact (atomic_update _).map _
  | deriveSharedSecret => exact (atomic_deriveSharedSecret d).map _
  | newRatchet secret => exact (atomic_newRatchet d secret).map _
  | nextMessageKeys chain => exact (atomic_nextMessageKeys d chain).map _
  | destroy => exact (atomic_update _).map _

theorem step_of_error {d : Derivation σ} {op : Operation} {s : KeyManager × σ} {e : KeyError}
    (h : (step d op s).1 = .error e) : (step d op s).2.1 = s.1 := by
  unfold step at h ⊢
  cases hs : perform d op s with
  | ok a t =>
    rw [hs] at h
    cases h
  | error e' t => exact atomic_perform d op s e' t hs

/-! ### Runs without their failed operations -/

/-- A run in which every operation finds the derivation in a state of its own, so that failures can
strike anywhere. -/
def runEach (d : Derivation σ) : List (Operation × σ) → KeyManager → List Outcome × KeyManager
  | [], m => ([], m)
  | (op, s) :: ops, m =>
    let r := step d op (m, s)
    let rest := runEach d ops r.2.1
    (r.1 :: rest.1, rest.2)

/-- The operations of a run, each with the state in which it finds the derivation. -/
def timed (d : Derivation σ) : List Operation → KeyManager × σ → List (Operation × σ)
  | [], _ => []
  | op :: ops, s => (op, s.2) :: timed d ops (step d op s).2

/-- The operations of a run that do not fail. -/
def succeeding (d : Derivation σ) (ops : List (Operation × σ)) (m : KeyManager) :
    List (Operation × σ) :=
  ((ops.zip (runEach d ops m).1).filter (·.2.isOk)).map (·.1)

theorem runEach_timed (d : Derivation σ) (ops : List Operation) (s : KeyManager × σ) :
    runEach d (timed d ops s) s.1 = ((run d ops s).1, (run d ops s).2.1) := by
  induction ops generalizing s with
  | nil => rfl
  | cons op ops ih => simp only [timed, runEach, run, ih]

theorem map_fst_timed (d : Derivation σ) (ops : List Operation) (s : KeyManager × σ) :
    (timed d ops s).map (·.1) = ops := by
  induction ops generalizing s with
  | nil => rfl
  | cons op ops ih => rw [timed, List.map_cons, ih]

section Cons

variable {d : Derivation σ} {op : Operation} {s : σ} {ops : List (Operation × σ)} {m : KeyManager}

theorem succeeding_cons_of_ok {a : Answer} (h : (step d op (m, s)).1 = .ok a) :
    succeeding d ((op, s) :: ops) m = (op, s) :: succeeding d ops (step d op (m, s)).2.1 := by
  have hkeep : (step d op (m, s)).1.isOk = true := by
    rw [h]
    rfl
  rw [succeeding, runEach, List.zip_cons_cons, List.filter_cons, if_pos hkeep]
  rfl

theorem succeeding_cons_of_error {e : KeyError} (h : (step d op (m, s)).1 = .error e) :
    succeeding d ((op, s) :: ops) m = succeeding d ops m := by
  have hdrop : ¬ (step d op (m, s)).1.isOk = true := by
    rw [h]
    exact Bool.false_ne_true
  have hm : (step d op (m, s)).2.1 = m := step_of_error h
  rw [succeeding, runEach, List.zip_cons_cons, List.filter_cons, if_neg hdrop, hm, succeeding]

end Cons

theorem runEach_succeeding (d : Derivation σ) (ops : List (Operation × σ)) (m : KeyManager) :
    runEach d (succeeding d ops m) m =
      ((runEach d ops m).1.filter (·.isOk), (runEach d ops m).2) := by
  induction ops generalizing m with
  | nil => rfl
  | cons p ops ih =>
    obtain ⟨op, s⟩ := p
    cases hs : (step d op (m, s)).1 with
    | ok a =>
      rw [succeeding_cons_of_ok hs, runEach, ih, runEach, hs]
      rfl
    | error e =>
      have hm : (step d op (m, s)).2.1 = m := step_of_error hs
      rw [succeeding_cons_of_error hs, ih, runEach, hs, hm]
      rfl

/-- An operation that fails leaves the manager as it was, and a run, whatever fails in it, leaves the
same manager and gives the same other outcomes when its failed operations are left out. -/
theorem run_of_succeeding (d : Derivation σ) :
    (∀ op m s e, (step d op (m, s)).1 = .error e → (step d op (m, s)).2.1 = m) ∧
    (∀ ops m, runEach d (succeeding d ops m) m =
      ((runEach d ops m).1.filter (·.isOk), (runEach d ops m).2)) ∧
    ∀ ops m s, (timed d ops (m, s)).map (·.1) = ops ∧
      runEach d (succeeding d (timed d ops (m, s)) m) m =
        ((run d ops (m, s)).1.filter (·.isOk), (run d ops (m, s)).2.1) := by
  refine ⟨fun op m s e => step_of_error, runEach_succeeding d, fun ops m s => ⟨?_, ?_⟩⟩
  · exact map_fst_timed d ops (m, s)
  · rw [runEach_succeeding, runEach_timed]

end KeyManager

end DeniableHandshake
