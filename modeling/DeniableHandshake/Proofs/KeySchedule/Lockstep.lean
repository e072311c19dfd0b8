import DeniableHandshake.Proofs.KeySchedule.Operations

/-!
# Sessions in lockstep

A session sees of a derivation nothing but its answers. Two sessions that differ in the derivation alone are
in lockstep if they return the same value or fail with the same error, leave the same manager, and take
derivation states that are related to states that are related again. It is enough that the queries of a key
manager are in lockstep; then so are its operations and its runs.
-/
namespace DeniableHandshake

namespace Session
variable {σ σ' α β : Type} {R : σ → σ' → Prop}

/-- The same value or the same error, the same manager, and derivation states that are related. -/
inductive EndAlike (R : σ → σ' → Prop) : EStateM.Result KeyError (KeyManager × σ) α →
    EStateM.Result KeyError (KeyManager × σ') α → Prop
  | ok (a : α) (m : KeyManager) {s : σ} {s' : σ'} (h : R s s') : EndAlike R (.ok a (m, s)) (.ok a (m, s'))
  | error (e : KeyError) (m : KeyManager) {s : σ} {s' : σ'} (h : R s s') :
    EndAlike R (.error e (m, s)) (.error e (m, s'))

/-- From the same manager and related states the two sessions end alike. -/
def Lockstep (R : σ → σ' → Prop) (x : Session σ α) (y : Session σ' α) : Prop :=
  ∀ m s s', R s s' → EndAlike R (x (m, s)) (y (m, s'))

theorem lockstep_pure (a : α) : Lockstep R (pure a) (pure a) := fun m _ _ h => .ok a m h

theorem lockstep_throw (e : KeyError) :
    Lockstep R (throw e : Session σ α) (throw e : Session σ' α) := fun m _ _ h => .error e m h

theorem lockstep_ofExcept (x : Except KeyError α) :
    Lockstep R (ofExcept x : Session σ α) (ofExcept x : Session σ' α) := by
  cases x with
  | ok a => exact lockstep_pure a
  | error e => exact lockstep_throw e

theorem lockstep_manager : Lockstep R (manager : Session σ KeyManager) manager := fun m _ _ h => .ok m m h

theorem lockstep_update (f : KeyManager → KeyManager) :
    Lockstep R (update f : Session σ Unit) (update f) := fun m _ _ h => .ok () (f m) h

theorem Lockstep.bind {x : Session σ α} {y : Session σ' α} {f : α → Session σ β} {g : α → Session σ' β}
    (hx : Lockstep R x y) (hf : ∀ a, Lockstep R (f a) (g a)) : Lockstep R (x >>= f) (y >>= g) := by
  intro m s s' h
  have hend := hx m s s' h
  generalize hxs : x (m, s) = r at hend
  generalize hys : y (m, s') = r' at hend
  cases hend with
  | ok a m₁ h₁ =>
    rw [bind_of_ok hxs, bind_of_ok hys]
    exact hf a m₁ _ _ h₁
  | error e m₁ h₁ =>
    rw [bind_of_error hxs, bind_of_error hys]
    exact .error e m₁ h₁

theorem Lockstep.map {x : Session σ α} {y : Session σ' α} (hx : Lockstep R x y) (g : α → β) :
    Lockstep R (g <$> x) (g <$> y) := by
  rw [map_eq_pure_bind, map_eq_pure_bind]
  exact hx.bind fun a => lockstep_pure (g a)

end Session

namespace KeyManager
open Session

variable {σ σ' : Type} {R : σ → σ' → Prop} {d : Derivation σ} {d' : Derivation σ'}

/-- The queries that a key manager makes are answered alike from related states on. Of the keyed ones, it
makes those under a whole root key only. -/
structure AsksAlike (R : σ → σ' → Prop) (d : Derivation σ) (d' : Derivation σ') : Prop where
  tagged : ∀ (u : Usage) secret n, Lockstep R (ask d (u.query secret) n) (ask d' (u.query secret) n)
  keyed : ∀ (root : Block rootKeySize) secret n,
    Lockstep R (ask d (.keyed root.toList secret) n) (ask d' (.keyed root.toList secret) n)

theorem lockstep_generateKeys (entropy : Entropy) :
    Lockstep R (generateKeys entropy : Session σ Unit) (generateKeys entropy : Session σ' Unit) := by
  unfold generateKeys
  refine (lockstep_ofExcept _).bind fun ⟨curve, rest⟩ => ?_
  refine (lockstep_ofExcept _).bind fun ⟨group, _⟩ => ?_
  exact lockstep_update _

theorem lockstep_deriveSharedSecret (h : AsksAlike R d d') :
    Lockstep R (deriveSharedSecret d) (deriveSharedSecret d') := by
  unfold deriveSharedSecret
  refine lockstep_manager.bind fun m => ?_
  dsimp only
  -- each of the three checks ends both sessions or lets both go on
  simp only [throw_bind]
  split
  · exact lockstep_throw _
  split
  · exact lockstep_throw _
  split
  · exact lockstep_throw _
  refine (lockstep_ofExcept _).bind fun curve => ?_
  refine (lockstep_ofExcept _).bind fun group => ?_
  refine (h.tagged _ _ _).bind fun brace => ?_
  refine (h.tagged _ _ _).bind fun secret => ?_
  exact (lockstep_update _).bind fun _ => lockstep_pure secret

theorem lockstep_deriveRatchetKeys (h : AsksAlike R d d') (input : Bytes) :
    Lockstep R (deriveRatchetKeys d input) (deriveRatchetKeys d' input) := by
  unfold deriveRatchetKeys
  refine (h.tagged _ _ _).bind fun root => ?_
  refine (h.tagged _ _ _).bind fun chainA => ?_
  refine (h.tagged _ _ _).bind fun chainB => ?_
  exact lockstep_pure _

theorem lockstep_newRatchet (h : AsksAlike R d d') (secret : Bytes) :
    Lockstep R (newRatchet d secret) (newRatchet d' secret) := by
  unfold newRatchet
  refine lockstep_manager.bind fun m => ?_
  dsimp only
  simp only [throw_bind]
  split
  · exact lockstep_throw _
  have hderived (input : Bytes) : Lockstep R
      (deriveRatchetKeys d input >>= fun keys =>
        update fun m => { m with current := keys, index := m.index + 1 })
      (deriveRatchetKeys d' input >>= fun keys =>
        update fun m => { m with current := keys, index := m.index + 1 }) :=
    (lockstep_deriveRatchetKeys h input).bind fun keys => lockstep_update _
  split
  · exact (lockstep_pure secret).bind hderived
  · exact ((h.keyed _ _ _).map Block.toList).bind hderived

theorem lockstep_nextMessageKeys (h : AsksAlike R d d') (chain : Chain) :
    Lockstep R (nextMessageKeys d chain) (nextMessageKeys d' chain) := by
  unfold nextMessageKeys
  refine lockstep_manager.bind fun m => ?_
  dsimp only
  simp only [throw_bind]
  split
  · exact lockstep_throw _
  refine (h.tagged _ _ _).bind fun encryption => ?_
  refine (h.tagged _ _ _).bind fun mac => ?_
  refine (h.tagged _ _ _).bind fun next => ?_
  exact (lockstep_update _).bind fun _ => lockstep_pure _

theorem lockstep_perform (h : AsksAlike R d d') (op : Operation) :
    Lockstep R (perform d op) (perform d' op) := by
  cases op with
  | generateKeys entropy => exact (lockstep_generateKeys entropy).map _
  | setTheirKeys point value => exact (lockstep_update _).map _
  | deriveSharedSecret => exact (lockstep_deriveSharedSecret h).map _
  | newRatchet secret => exact (lockstep_newRatchet h secret).map _
  | nextMessageKeys chain => exact (lockstep_nextMessageKeys h chain).map _
  | destroy => exact (lockstep_update _).map _

/-! ### Steps and runs -/

/-- The same outcomes, the same manager, and derivation states that are related. -/
structure SameSoFar {γ : Type} (R : σ → σ' → Prop) (x : γ × KeyManager × σ) (y : γ × KeyManager × σ') :
    Prop where
  outcome : x.1 = y.1
  manager : x.2.1 = y.2.1
  related : R x.2.2 y.2.2

theorem step_lockstep (h : AsksAlike R d d') (op : Operation) {m : KeyManager} {s : σ} {s' : σ'}
    (hs : R s s') : SameSoFar R (step d op (m, s)) (step d' op (m, s')) := by
  have hend := lockstep_perform h op m s s' hs
  unfold step
  generalize perform d op (m, s) = r at hend
  generalize perform d' op (m, s') = r' at hend
  cases hend with
  | ok a m₁ h₁ => exact ⟨rfl, rfl, h₁⟩
  | error e m₁ h₁ => exact ⟨rfl, rfl, h₁⟩

theorem run_lockstep (h : AsksAlike R d d') (ops : List Operation) {m : KeyManager} {s : σ} {s' : σ'}
    (hs : R s s') : SameSoFar R (run d ops (m, s)) (run d' ops (m, s')) := by
  induction ops generalizing m s s' with
  | nil => exact ⟨rfl, rfl, hs⟩
  | cons op ops ih =>
    obtain ⟨houtcome, hmanager, hrelated⟩ := step_lockstep h op (m := m) hs
    obtain ⟨houtcomes, hlast, hrelated'⟩ := ih (m := (step d op (m, s)).2.1) hrelated
    have hnext : ((step d op (m, s)).2.1, (step d' op (m, s')).2.2) = (step d' op (m, s')).2 :=
      Prod.ext hmanager rfl
    rw [hnext] at houtcomes hlast hrelated'
    exact ⟨List.cons_eq_cons.mpr ⟨houtcome, houtcomes⟩, hlast, hrelated'⟩

end KeyManager

end DeniableHandshake
