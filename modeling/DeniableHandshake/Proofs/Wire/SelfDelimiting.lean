import DeniableHandshake.Wire.Field

/-!
# Self-delimiting readers

A reader is `Bounded` if it counts no more bytes than there are. It `Reads` a byte string as a value if
it does so in front of anything and counts just these bytes. A self-delimiting reader reads only in this
way, so it is bounded, and its refusals stand however the input goes on, those for want of bytes
excepted. Readers run one after another keep both laws, so every field made of such parts has them.
-/
namespace DeniableHandshake

section Map

variable {α β ε : Type} {of : α → β} {x : Except ε α}

theorem map_eq_ok_iff {v : β} : of <$> x = .ok v ↔ ∃ a, x = .ok a ∧ of a = v := by
  cases x with
  | error e =>
    constructor
    · nofun
    · rintro ⟨_, h, _⟩
      cases h
  | ok a =>
    constructor
    · intro h
      exact ⟨a, rfl, Except.ok.inj h⟩
    · rintro ⟨_, h, rfl⟩
      cases h
      rfl

theorem map_eq_error_iff {e : ε} : of <$> x = .error e ↔ x = .error e := by
  cases x with
  | error e' =>
    exact ⟨fun h => congrArg _ (Except.error.inj h), fun h => congrArg _ (Except.error.inj h)⟩
  | ok a => exact ⟨nofun, nofun⟩

end Map

namespace Reader

variable {α β : Type}

structure Bounded (r : Reader α) : Prop where
  count_le : ∀ {input a n}, r input = .ok (a, n) → n ≤ input.length

def Reads (r : Reader α) (b : Bytes) (a : α) : Prop := ∀ rest, r (b ++ rest) = .ok (a, b.length)

structure SelfDelimiting (r : Reader α) : Prop where
  reads : ∀ {input a n}, r input = .ok (a, n) → n ≤ input.length ∧ r.Reads (input.take n) a
  refuses : ∀ {input e}, r input = .error e → e.isTruncation = false →
    ∀ more, r (input ++ more) = .error e
  /-- Bytes that are left over are no matter of a part. -/
  error_ne_trailing : ∀ {input e}, r input = .error e → ∀ n, e ≠ .trailingBytes n

/-- Two readings that start at the same place end at the same place. -/
theorem Reads.split_unique {r : Reader α} {a a' : α} {b b' rest rest' : Bytes}
    (h : r.Reads b a) (h' : r.Reads b' a') (he : b ++ rest = b' ++ rest') :
    a = a' ∧ b = b' ∧ rest = rest' := by
  have hread := h rest
  rw [he, h' rest'] at hread
  obtain ⟨rfl, hlength⟩ := Prod.mk.inj (Except.ok.inj hread)
  exact ⟨rfl, List.append_inj he hlength.symm⟩

namespace SelfDelimiting

variable {r : Reader α} {input b : Bytes} {a : α} {n : Nat}

theorem bounded (hr : r.SelfDelimiting) : r.Bounded := ⟨fun h => (hr.reads h).1⟩

/-- What is counted are the bytes of the value. -/
theorem eq_ok_iff (hr : r.SelfDelimiting) :
    r input = .ok (a, n) ↔ n ≤ input.length ∧ r.Reads (input.take n) a := by
  constructor
  · exact hr.reads
  · rintro ⟨hn, hreads⟩
    have hi := hreads (input.drop n)
    rwa [List.take_append_drop, List.length_take_of_le hn] at hi

theorem reads_iff (hr : r.SelfDelimiting) : r.Reads b a ↔ r b = .ok (a, b.length) := by
  rw [hr.eq_ok_iff, List.take_length, eq_true (Nat.le_refl b.length), true_and]

theorem append (hr : r.SelfDelimiting) (h : r input = .ok (a, n)) (more : Bytes) :
    r (input ++ more) = .ok (a, n) := by
  obtain ⟨hn, hreads⟩ := hr.reads h
  have hmore := hreads (input.drop n ++ more)
  rwa [← List.append_assoc, List.take_append_drop, List.length_take_of_le hn] at hmore

end SelfDelimiting

/-! ## Closure -/

section AndThen

variable {r : Reader α} {g : α → Reader β} {input b c : Bytes} {a : α} {v : β} {e : WireError} {m n : Nat}

theorem andThen_of_error (h : r input = .error e) (g : α → Reader β) :
    r.andThen g input = .error e := by
  rw [andThen, h]
  rfl

theorem andThen_of_ok (h : r input = .ok (a, m)) (g : α → Reader β) :
    r.andThen g input = (fun p => (p.1, m + p.2)) <$> g a (input.drop m) := by
  rw [andThen, h]
  cases hg : g a (input.drop m) with
  | error e =>
    simp only [bind, Except.bind, hg]
    rfl
  | ok p =>
    simp only [bind, Except.bind, hg]
    rfl

theorem andThen_eq_ok_iff : r.andThen g input = .ok (v, n) ↔
    ∃ a m k, r input = .ok (a, m) ∧ g a (input.drop m) = .ok (v, k) ∧ m + k = n := by
  constructor
  · intro h
    cases hi : r input with
    | error e =>
      rw [andThen_of_error hi] at h
      cases h
    | ok p =>
      rw [andThen_of_ok hi] at h
      obtain ⟨q, hq, hp⟩ := map_eq_ok_iff.mp h
      cases hp
      exact ⟨p.1, p.2, q.2, rfl, hq, rfl⟩
  · rintro ⟨a, m, k, hi, hg, rfl⟩
    rw [andThen_of_ok hi, hg]
    rfl

theorem Bounded.andThen (hr : r.Bounded) (hg : ∀ a, (g a).Bounded) : (r.andThen g).Bounded where
  count_le := by
    intro input v n h
    obtain ⟨a, m, k, hi, hv, rfl⟩ := andThen_eq_ok_iff.mp h
    have hm := hr.count_le hi
    have hk := (hg a).count_le hv
    rw [List.length_drop] at hk
    omega

theorem Reads.andThen (hr : r.Reads b a) (hg : (g a).Reads c v) : (r.andThen g).Reads (b ++ c) v := by
  intro rest
  rw [List.append_assoc, andThen_of_ok (hr _), List.drop_left, hg, List.length_append]
  rfl

end AndThen

theorem bounded_verdict (v : Except WireError α) : (verdict v).Bounded where
  count_le := by
    intro input a n h
    obtain ⟨_, -, hcount⟩ := map_eq_ok_iff.mp h
    cases hcount
    exact Nat.zero_le input.length

theorem selfDelimiting_verdict {v : Except WireError α} (hv : ∀ n, v ≠ .error (.trailingBytes n)) :
    (verdict v).SelfDelimiting := by
  cases v with
  | ok a =>
    refine ⟨fun h => ?_, nofun, nofun⟩
    cases h
    exact ⟨Nat.zero_le _, fun _ => rfl⟩
  | error e =>
    refine ⟨nofun, fun h _ _ => h, fun h n hn => ?_⟩
    cases h
    exact hv n (congrArg _ hn)

theorem selfDelimiting_result (a : α) : (result a).SelfDelimiting := selfDelimiting_verdict nofun

theorem reads_verdict_iff {v : Except WireError α} {b : Bytes} {a : α} :
    (verdict v).Reads b a ↔ v = .ok a ∧ b = [] := by
  cases v with
  | error e =>
    constructor
    · intro h
      cases h []
    · rintro ⟨h, -⟩
      cases h
  | ok a' =>
    constructor
    · intro h
      obtain ⟨rfl, hlength⟩ := Prod.mk.inj (Except.ok.inj (h []))
      exact ⟨rfl, List.length_eq_zero_iff.mp hlength.symm⟩
    · rintro ⟨h, rfl⟩
      cases h
      exact fun _ => rfl

theorem selfDelimiting_take (name : String) (n : Nat) : (take name n).SelfDelimiting where
  reads := by
    intro input a k h
    rw [take] at h
    split at h
    · next hn =>
      cases h
      refine ⟨hn, fun rest => ?_⟩
      have hlength : (input.take n).length = n := List.length_take_of_le hn
      have hle : n ≤ (input.take n ++ rest).length := by
        rw [List.length_append]
        omega
      simp [take, hn]
    · cases h
  refuses := by
    intro input e h hne
    rw [take] at h
    split at h
    · cases h
    · cases h
      cases hne
  error_ne_trailing := by
    intro input e h n
    rw [take] at h
    split at h
    · cases h
    · cases h
      intro hne
      cases hne

theorem SelfDelimiting.andThen {r : Reader α} {g : α → Reader β} (hr : r.SelfDelimiting)
    (hg : ∀ a, (g a).SelfDelimiting) : (r.andThen g).SelfDelimiting where
  reads := by
    intro input v n h
    refine ⟨(hr.bounded.andThen fun a => (hg a).bounded).count_le h, ?_⟩
    obtain ⟨a, m, k, hi, hv, rfl⟩ := andThen_eq_ok_iff.mp h
    rw [List.take_add]
    exact (hr.reads hi).2.andThen ((hg a).reads hv).2
  refuses := by
    intro input e h hne more
    cases hi : r input with
    | error e' =>
      rw [andThen_of_error hi] at h
      cases h
      exact andThen_of_error (hr.refuses hi hne more) g
    | ok p =>
      rw [andThen_of_ok hi, map_eq_error_iff] at h
      rw [andThen_of_ok (hr.append hi more), map_eq_error_iff,
        List.drop_append_of_le_length (hr.bounded.count_le hi)]
      exact (hg p.1).refuses h hne more
  error_ne_trailing := by
    intro input e h
    cases hi : r input with
    | error e' =>
      rw [andThen_of_error hi] at h
      cases h
      exact hr.error_ne_trailing hi
    | ok p =>
      rw [andThen_of_ok hi, map_eq_error_iff] at h
      exact (hg p.1).error_ne_trailing h

theorem SelfDelimiting.reads_andThen_iff {r : Reader α} {g : α → Reader β} (hr : r.SelfDelimiting)
    (hg : ∀ a, (g a).SelfDelimiting) {b : Bytes} {v : β} :
    (r.andThen g).Reads b v ↔ ∃ a b₁ b₂, b = b₁ ++ b₂ ∧ r.Reads b₁ a ∧ (g a).Reads b₂ v := by
  constructor
  · intro h
    obtain ⟨a, m, k, hi, hv, hlength⟩ := andThen_eq_ok_iff.mp ((hr.andThen hg).reads_iff.mp h)
    obtain ⟨hm, hreads⟩ := hr.reads hi
    have hk : (b.drop m).length = k := by
      rw [List.length_drop]
      omega
    rw [← hk] at hv
    exact ⟨a, b.take m, b.drop m, (List.take_append_drop m b).symm, hreads, (hg a).reads_iff.mpr hv⟩
  · rintro ⟨a, b₁, b₂, rfl, hr₁, hg₂⟩
    exact hr₁.andThen hg₂

theorem SelfDelimiting.reads_andThen_verdict_iff {r : Reader α} {accept : α → Except WireError β}
    (hr : r.SelfDelimiting) (hv : ∀ a n, accept a ≠ .error (.trailingBytes n)) {b : Bytes} {v : β} :
    (r.andThen fun a => verdict (accept a)).Reads b v ↔ ∃ a, r.Reads b a ∧ accept a = .ok v := by
  rw [hr.reads_andThen_iff fun a => selfDelimiting_verdict (hv a)]
  constructor
  · rintro ⟨a, b₁, b₂, rfl, ha, hb₂⟩
    obtain ⟨hv, rfl⟩ := reads_verdict_iff.mp hb₂
    rw [List.append_nil]
    exact ⟨a, ha, hv⟩
  · rintro ⟨a, ha, hv⟩
    exact ⟨a, b, [], (List.append_nil b).symm, ha, reads_verdict_iff.mpr ⟨hv, rfl⟩⟩

theorem SelfDelimiting.reads_andThen_result_iff {r : Reader α} {f : α → β} (hr : r.SelfDelimiting)
    {b : Bytes} {v : β} :
    (r.andThen fun a => result (f a)).Reads b v ↔ ∃ a, r.Reads b a ∧ f a = v := by
  have haccepted (a : α) (n : Nat) : (.ok (f a) : Except WireError β) ≠ .error (.trailingBytes n) := nofun
  have h := hr.reads_andThen_verdict_iff haccepted (b := b) (v := v)
  simp only [Except.ok.injEq] at h
  exact h

end Reader

end DeniableHandshake
