import DeniableHandshake.KeySchedule.Run

/-!
# What a session leaves behind and what it returns

A session preserves a part of the manager if it never writes there, and then a failure leaves that
part alone as well. Under a derivation that computes a function, the outcome of a session is fixed by
the manager it starts from, whatever the state of the derivation is.
-/
namespace DeniableHandshake

/-- The derivation never fails, and its answers are the values of a function of the query and the
length. -/
def Derivation.Computes {σ : Type} (d : Derivation σ) (f : Query → (n : Nat) → Block n) : Prop :=
  ∀ q n s, (d.answer q n s).1 = .ok (f q n)

theorem Derivation.computes_ofFunction {σ : Type} (f : Query → (n : Nat) → Block n) :
    (ofFunction f : Derivation σ).Computes f := fun _ _ _ => rfl

theorem Derivation.computes_shake {σ : Type} : (shake : Derivation σ).Computes Query.shake :=
  computes_ofFunction Query.shake

namespace Session
variable {σ α β γ : Type} {m m₁ m₂ : KeyManager} {a : α} {b : β}

theorem bind_of_ok {x : Session σ α} {f : α → Session σ β} {s t : KeyManager × σ}
    (h : x s = .ok a t) : (x >>= f) s = f a t := by
  simp only [bind, EStateM.bind, h]

theorem bind_of_error {x : Session σ α} {f : α → Session σ β} {s t : KeyManager × σ} {e : KeyError}
    (h : x s = .error e t) : (x >>= f) s = .error e t := by
  simp only [bind, EStateM.bind, h]

theorem throw_bind (e : KeyError) (f : α → Session σ β) :
    ((throw e : Session σ α) >>= f) = throw e := rfl

/-- The manager and the state that are left when the session ends, also when it fails. -/
def after (x : Session σ α) (s : KeyManager × σ) : KeyManager × σ :=
  match x s with
  | .ok _ t => t
  | .error _ t => t

theorem after_of_ok {x : Session σ α} {s t : KeyManager × σ} (h : x s = .ok a t) :
    x.after s = t := by
  simp only [after, h]

theorem after_of_error {x : Session σ α} {s t : KeyManager × σ} {e : KeyError}
    (h : x s = .error e t) : x.after s = t := by
  simp only [after, h]

/-- The session leaves a part of the manager as it is, also when it fails. -/
def Preserves (part : KeyManager → γ) (x : Session σ α) : Prop :=
  ∀ s, part (x.after s).1 = part s.1

section Preserves
variable {part : KeyManager → γ}

theorem preserves_pure (a : α) : Preserves part (pure a : Session σ α) := fun _ => rfl

theorem preserves_throw (e : KeyError) : Preserves part (throw e : Session σ α) := fun _ => rfl

theorem preserves_ofExcept (x : Except KeyError α) : Preserves part (ofExcept x : Session σ α) := by
  cases x with
  | ok a => exact preserves_pure a
  | error e => exact preserves_throw e

theorem preserves_manager : Preserves part (manager : Session σ KeyManager) := fun _ => rfl

theorem preserves_update {f : KeyManager → KeyManager} (h : ∀ m, part (f m) = part m) :
    Preserves part (update f : Session σ Unit) := fun s => h s.1

theorem preserves_ask (d : Derivation σ) (q : Query) (n : Nat) : Preserves part (ask d q n) := by
  intro s
  unfold after ask
  rcases d.answer q n s.2 with ⟨_ | _, t⟩
  · rfl
  · rfl

theorem Preserves.bind {x : Session σ α} {f : α → Session σ β} (hx : Preserves part x)
    (hf : ∀ a, Preserves part (f a)) : Preserves part (x >>= f) := by
  intro s
  have hs := hx s
  cases h : x s with
  | ok a t =>
    rw [after_of_ok h] at hs
    have ht := hf a t
    rw [hs] at ht
    simpa only [after, bind_of_ok h] using ht
  | error e t =>
    rw [after_of_error h] at hs
    simpa only [after, bind_of_error h] using hs

theorem Preserves.map {x : Session σ α} (hx : Preserves part x) (g : α → β) :
    Preserves part (g <$> x) := by
  rw [map_eq_pure_bind]
  exact hx.bind fun a => preserves_pure (g a)

end Preserves

/-- From one manager the session returns a value and leaves another manager, whatever the state of
the derivation is. -/
def Returns (x : Session σ α) (m : KeyManager) (a : α) (m' : KeyManager) : Prop :=
  ∀ s, ∃ t, x (m, s) = .ok a (m', t)

theorem returns_pure (a : α) : Returns (pure a : Session σ α) m a m := fun s => ⟨s, rfl⟩

theorem returns_manager : Returns (manager : Session σ KeyManager) m m m := fun s => ⟨s, rfl⟩

theorem returns_update (f : KeyManager → KeyManager) :
    Returns (update f : Session σ Unit) m () (f m) := fun s => ⟨s, rfl⟩

theorem returns_ask {d : Derivation σ} {f : Query → (n : Nat) → Block n} (hd : d.Computes f)
    (q : Query) (n : Nat) : Returns (ask d q n) m (f q n) m := by
  intro s
  have h := hd q n s
  unfold ask
  rcases hs : d.answer q n s with ⟨r, t⟩
  rw [hs] at h
  cases h
  exact ⟨t, rfl⟩

theorem Returns.bind {x : Session σ α} {f : α → Session σ β} (hx : Returns x m a m₁)
    (hf : Returns (f a) m₁ b m₂) : Returns (x >>= f) m b m₂ := by
  intro s
  obtain ⟨t, ht⟩ := hx s
  obtain ⟨u, hu⟩ := hf t
  exact ⟨u, (bind_of_ok ht).trans hu⟩

theorem Returns.map {x : Session σ α} (hx : Returns x m a m₁) (g : α → β) :
    Returns (g <$> x) m (g a) m₁ := by
  rw [map_eq_pure_bind]
  exact hx.bind (returns_pure (g a))

end Session

end DeniableHandshake
