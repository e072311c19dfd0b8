import DeniableHandshake.Proofs.Wire.Law
import DeniableHandshake.Wire.Cursor

/-!
# Inputs that hold one value

What becomes of an input that holds one value and nothing else when it goes on. A value that is not
`Open` is followed by trailing bytes, and a refusal stands unless it asked for more bytes. This holds
wherever the reader is self-delimiting, and a self-delimiting field in front of another one changes
nothing about it.
-/
namespace DeniableHandshake

/-- The refusal after `n` more bytes, when it did not ask for them. -/
def WireError.prolong (n : Nat) : WireError → WireError
  | trailingBytes count => trailingBytes (count + n)
  | e => e

theorem WireError.prolong_of_ne {e : WireError} (he : ∀ n, e ≠ .trailingBytes n) (n : Nat) :
    e.prolong n = e := by
  cases e with
  | trailingBytes count => exact absurd rfl (he count)
  | _ => rfl

structure Prolongs {α : Type} (D : Bytes → Except WireError α) (Open : α → Prop) : Prop where
  accepted : ∀ {b a}, D b = .ok a → ¬ Open a → ∀ x, x ≠ [] →
    D (b ++ x) = .error (.trailingBytes x.length)
  refused : ∀ {b e}, D b = .error e → e.isTruncation = false → ∀ x,
    D (b ++ x) = .error (e.prolong x.length)

variable {α β : Type}

namespace Reader

variable {r : Reader α} {input : Bytes} {a : α} {e : WireError} {n : Nat}

theorem whole_of_error (h : r input = .error e) : r.whole input = .error e := by
  have hread : (Cursor.start input).read r = (.error e, .start input) := Cursor.read_of_error h
  rw [whole, hread]
  rfl

theorem whole_of_ok (h : r input = .ok (a, n)) : r.whole input =
    if input.length - n = 0 then .ok a else .error (.trailingBytes (input.length - n)) := by
  have hread : (Cursor.start input).read r = (.ok a, ⟨input, 0 + n⟩) := Cursor.read_of_ok h
  rw [whole, hread, Nat.zero_add]
  by_cases hleft : input.length - n = 0
  · have hfinish : (⟨input, n⟩ : Cursor).finish = .ok () := if_pos hleft
    rw [if_pos hleft]
    simp only [hfinish]
    rfl
  · have hfinish : (⟨input, n⟩ : Cursor).finish = .error (.trailingBytes (input.length - n)) := if_neg hleft
    rw [if_neg hleft]
    simp only [hfinish]
    rfl

theorem whole_andThen_of_error (h : r input = .error e) (g : α → Reader β) :
    (r.andThen g).whole input = .error e := whole_of_error (andThen_of_error h g)

theorem whole_andThen_of_ok (h : r input = .ok (a, n)) (g : α → Reader β) :
    (r.andThen g).whole input = (g a).whole (input.drop n) := by
  have hboth := andThen_of_ok h g
  cases hg : g a (input.drop n) with
  | error e =>
    rw [hg] at hboth
    rw [whole_of_error hboth, whole_of_error hg]
  | ok p =>
    rw [hg] at hboth
    rw [whole_of_ok hboth, whole_of_ok hg, List.length_drop, Nat.sub_sub]

theorem whole_map (r : Reader α) (f : α → β) (input : Bytes) :
    (r.andThen fun a => .result (f a)).whole input = f <$> r.whole input := by
  cases h : r input with
  | error e =>
    rw [whole_andThen_of_error h, whole_of_error h]
    rfl
  | ok p =>
    rw [whole_andThen_of_ok h, whole_of_ok rfl, whole_of_ok h, List.length_drop, Nat.sub_zero]
    split <;> rfl

theorem SelfDelimiting.whole_eq_ok_iff (hr : r.SelfDelimiting) :
    r.whole input = .ok a ↔ r.Reads input a := by
  rw [hr.reads_iff]
  constructor
  · intro h
    cases hi : r input with
    | error e =>
      rw [whole_of_error hi] at h
      cases h
    | ok p =>
      have hle := hr.bounded.count_le hi
      rw [whole_of_ok hi] at h
      split at h
      · cases h
        rw [show input.length = p.2 by omega]
      · cases h
  · intro h
    rw [whole_of_ok h, Nat.sub_self, if_pos rfl]

theorem SelfDelimiting.prolongs (hr : r.SelfDelimiting) : Prolongs r.whole fun _ => False where
  accepted := by
    intro b a h _ x hx
    have hb := hr.whole_eq_ok_iff.mp h x
    rw [whole_of_ok hb, List.length_append, Nat.add_sub_cancel_left,
      if_neg (mt List.length_eq_zero_iff.mp hx)]
  refused := by
    intro b e h hne x
    cases hi : r b with
    | error e' =>
      rw [whole_of_error hi] at h
      cases h
      rw [whole_of_error (hr.refuses hi hne x), WireError.prolong_of_ne (hr.error_ne_trailing hi)]
    | ok p =>
      have hle := hr.bounded.count_le hi
      rw [whole_of_ok hi] at h
      split at h
      · cases h
      · next hleft =>
        cases h
        have hlength : (b ++ x).length - p.2 = b.length - p.2 + x.length := by
          rw [List.length_append]
          omega
        rw [whole_of_ok (hr.append hi x), hlength, if_neg (by omega)]
        rfl

end Reader

namespace Field

variable {f : Field α} {g : Field β} {input : Bytes}

theorem whole_pair_of_error {e : WireError} (h : f.read input = .error e) (g : Field β) :
    (f.pair g).read.whole input = .error e := by
  rw [read_pair, Reader.whole_andThen_of_error h]

theorem whole_pair_of_ok {a : α} {n : Nat} (h : f.read input = .ok (a, n)) (g : Field β) :
    (f.pair g).read.whole input = (a, ·) <$> g.read.whole (input.drop n) := by
  rw [read_pair, Reader.whole_andThen_of_ok h, Reader.whole_map]

theorem whole_iso (f : Field α) (of : α → β) (raw : β → α) (input : Bytes) :
    (f.iso of raw).read.whole input = of <$> f.read.whole input :=
  Reader.whole_map f.read of input

theorem whole_pair_eq_ok_iff (f : Field α) (g : Field β) [f.Lawful] {p : α × β} :
    (f.pair g).read.whole input = .ok p ↔
      ∃ b₁ b₂, input = b₁ ++ b₂ ∧ f.read.Reads b₁ p.1 ∧ g.read.whole b₂ = .ok p.2 := by
  constructor
  · intro h
    cases hf : f.read input with
    | error e =>
      rw [whole_pair_of_error hf] at h
      cases h
    | ok q =>
      rw [whole_pair_of_ok hf] at h
      obtain ⟨c, hg, rfl⟩ := map_eq_ok_iff.mp h
      obtain ⟨-, hreads⟩ := f.selfDelimiting.reads hf
      exact ⟨input.take q.2, input.drop q.2, (List.take_append_drop q.2 input).symm, hreads, hg⟩
  · rintro ⟨b₁, b₂, rfl, hreads, hg⟩
    rw [whole_pair_of_ok (hreads b₂), List.drop_left, hg]
    rfl

theorem whole_iso_eq_ok_iff (f : Field α) {of : α → β} {raw : β → α} {v : β} :
    (f.iso of raw).read.whole input = .ok v ↔ ∃ a, f.read.whole input = .ok a ∧ of a = v := by
  rw [whole_iso, map_eq_ok_iff]

end Field

namespace Prolongs

theorem map {D : Bytes → Except WireError α} {Open : β → Prop} (of : α → β)
    (h : Prolongs D fun a => Open (of a)) : Prolongs (fun b => of <$> D b) Open where
  accepted := by
    intro b v hb hopen x hx
    obtain ⟨a, ha, rfl⟩ := map_eq_ok_iff.mp hb
    exact map_eq_error_iff.mpr (h.accepted ha hopen x hx)
  refused := by
    intro b e hb hne x
    exact map_eq_error_iff.mpr (h.refused (map_eq_error_iff.mp hb) hne x)

theorem iso {f : Field α} {Open : β → Prop} {of : α → β} (raw : β → α)
    (h : Prolongs f.read.whole fun a => Open (of a)) : Prolongs (f.iso of raw).read.whole Open := by
  have hwhole : (f.iso of raw).read.whole = fun b => of <$> f.read.whole b :=
    funext (Field.whole_iso f of raw)
  rw [hwhole]
  exact h.map of

theorem pair (f : Field α) [f.Lawful] {g : Field β} {Open : β → Prop}
    (h : Prolongs g.read.whole Open) : Prolongs (f.pair g).read.whole fun p => Open p.2 where
  accepted := by
    intro b p hb hopen x hx
    obtain ⟨b₁, b₂, rfl, hreads, hg⟩ := (Field.whole_pair_eq_ok_iff f g).mp hb
    rw [List.append_assoc, Field.whole_pair_of_ok (hreads _), List.drop_left, map_eq_error_iff]
    exact h.accepted hg hopen x hx
  refused := by
    intro b e hb hne x
    cases hf : f.read b with
    | error e' =>
      rw [Field.whole_pair_of_error hf] at hb
      cases hb
      rw [Field.whole_pair_of_error (f.selfDelimiting.refuses hf hne x),
        WireError.prolong_of_ne (f.selfDelimiting.error_ne_trailing hf)]
    | ok q =>
      rw [Field.whole_pair_of_ok hf, map_eq_error_iff] at hb
      rw [Field.whole_pair_of_ok (f.selfDelimiting.append hf x), map_eq_error_iff,
        List.drop_append_of_le_length (f.selfDelimiting.bounded.count_le hf)]
      exact h.refused hb hne x

end Prolongs

end DeniableHandshake
