import DeniableHandshake.Proofs.Wire.SelfDelimiting

/-!
# Laws of fields

Writing a value appends bytes that do not depend on the buffer: all bytes of the value, or those in
front of the part that cannot be written. Such a field is `Appending`; it is `Lawful` if its reader
is self-delimiting as well, and `Canonical` if each value is read from what it is written as and
from nothing else. What the combinators write and read is told by their parts.
-/
namespace DeniableHandshake.Field

variable {α β : Type}

def Writes (f : Field α) (a : α) (b : Bytes) : Prop :=
  ∀ buffer, f.write a buffer = .ok b.length (buffer ++ b)

/-- Writing `a` fails with `e` after `b` was appended. -/
def Fails (f : Field α) (a : α) (e : WireError) (b : Bytes) : Prop :=
  ∀ buffer, f.write a buffer = .error e (buffer ++ b)

class Appending (f : Field α) : Prop where
  writes_or_fails : ∀ a, (∃ b, f.Writes a b) ∨ ∃ e b, f.Fails a e b

class Lawful (f : Field α) : Prop extends f.Appending where
  selfDelimiting : f.read.SelfDelimiting

class Canonical (f : Field α) : Prop extends f.Lawful where
  reads_iff_writes : ∀ {a b}, f.read.Reads b a ↔ f.Writes a b

theorem selfDelimiting (f : Field α) [hf : f.Lawful] : f.read.SelfDelimiting := hf.selfDelimiting

theorem reads_of_writes (f : Field α) [hf : f.Canonical] {a : α} {b : Bytes} (h : f.Writes a b) :
    f.read.Reads b a := hf.reads_iff_writes.mpr h

theorem Writes.unique {f : Field α} {a : α} {b b' : Bytes} (h : f.Writes a b)
    (h' : f.Writes a b') : b = b' := by
  have he := (h []).symm.trans (h' [])
  injection he

theorem Writes.not_fails {f : Field α} {a : α} {b b' : Bytes} {e : WireError} (h : f.Writes a b) :
    ¬ f.Fails a e b' := by
  intro h'
  have he := (h []).symm.trans (h' [])
  cases he

/-- What a writer does is known from one buffer. -/
theorem writes_iff (f : Field α) [hf : f.Appending] {a : α} {b : Bytes} :
    f.Writes a b ↔ ∃ n, f.write a [] = .ok n b := by
  constructor
  · intro h
    exact ⟨b.length, h []⟩
  · rintro ⟨n, hn⟩
    rcases hf.writes_or_fails a with ⟨c, hc⟩ | ⟨e, c, hc⟩
    · have he := hn.symm.trans (hc [])
      injection he with _ hb
      rwa [show b = c from hb]
    · cases hn.symm.trans (hc [])

/-! ## Blocks -/

theorem writes_block {name : String} {n : Nat} {a : Block n} {b : Bytes} :
    (block name n).Writes a b ↔ b = a.toList := by
  constructor
  · intro h
    have he := h []
    injection he with _ hb
    exact hb.symm
  · rintro rfl buffer
    rfl

theorem take_of_lt {name : String} {n : Nat} {input : Bytes} (h : input.length < n) :
    Reader.take name n input = .error (.truncated name n input.length) := dif_neg (Nat.not_le.mpr h)

theorem take_of_le {name : String} {n : Nat} {input : Bytes} (h : n ≤ input.length) :
    Reader.take name n input = .ok (⟨input.take n, List.length_take_of_le h⟩, n) := dif_pos h

theorem count_take {name : String} {n k : Nat} {input : Bytes} {a : Block n}
    (h : Reader.take name n input = .ok (a, k)) : k = n := by
  rw [Reader.take] at h
  split at h
  · cases h
    rfl
  · cases h

theorem take_toList {name : String} {n : Nat} (a : Block n) (rest : Bytes) :
    Reader.take name n (a.toList ++ rest) = .ok (a, n) := by
  have hle : n ≤ (a.toList ++ rest).length := by
    rw [List.length_append, a.length_toList]
    omega
  rw [take_of_le hle]
  congr
  exact List.take_left' a.length_toList

theorem reads_block {name : String} {n : Nat} {a : Block n} {b : Bytes} :
    (block name n).read.Reads b a ↔ b = a.toList := by
  constructor
  · intro h
    have hb : Reader.take name n b = .ok (a, b.length) :=
      (Reader.selfDelimiting_take name n).reads_iff.mp h
    rw [Reader.take] at hb
    split at hb
    · obtain ⟨rfl, hlength⟩ := Prod.mk.inj (Except.ok.inj hb)
      change b = b.take n
      rw [hlength, List.take_length]
    · cases hb
  · rintro rfl rest
    rw [a.length_toList]
    exact take_toList a rest

instance (name : String) (n : Nat) : (block name n).Canonical where
  selfDelimiting := Reader.selfDelimiting_take name n
  writes_or_fails a := .inl ⟨a.toList, writes_block.mpr rfl⟩
  reads_iff_writes := reads_block.trans writes_block.symm

/-! ## Pairs -/

theorem bounded_pair {f : Field α} {g : Field β} (hf : f.read.Bounded) (hg : g.read.Bounded) :
    (f.pair g).read.Bounded :=
  hf.andThen fun a => hg.andThen fun b => Reader.bounded_verdict (.ok (a, b))

theorem read_pair (f : Field α) (g : Field β) :
    (f.pair g).read = f.read.andThen fun a => g.read.andThen fun c => Reader.result (a, c) := rfl

theorem Writes.pair {f : Field α} {g : Field β} {a : α} {c : β} {b b' : Bytes}
    (hf : f.Writes a b) (hg : g.Writes c b') : (f.pair g).Writes (a, c) (b ++ b') := by
  intro buffer
  simp only [Field.pair, bind, EStateM.bind, hf buffer, hg (buffer ++ b), pure, EStateM.pure,
    List.length_append, List.append_assoc]

theorem Fails.pair_left {f : Field α} {a : α} {e : WireError} {b : Bytes} (hf : f.Fails a e b)
    (g : Field β) (c : β) : (f.pair g).Fails (a, c) e b := by
  intro buffer
  simp only [Field.pair, bind, EStateM.bind, hf buffer]

theorem Fails.pair_right {f : Field α} {g : Field β} {a : α} {c : β} {e : WireError}
    {b b' : Bytes} (hf : f.Writes a b) (hg : g.Fails c e b') :
    (f.pair g).Fails (a, c) e (b ++ b') := by
  intro buffer
  simp only [Field.pair, bind, EStateM.bind, hf buffer, hg (buffer ++ b), List.append_assoc]

instance (f : Field α) (g : Field β) [hf : f.Appending] [hg : g.Appending] :
    (f.pair g).Appending where
  writes_or_fails := by
    rintro ⟨a, c⟩
    rcases hf.writes_or_fails a with ⟨b, hb⟩ | ⟨e, b, hb⟩
    · rcases hg.writes_or_fails c with ⟨b', hb'⟩ | ⟨e, b', hb'⟩
      · exact .inl ⟨_, hb.pair hb'⟩
      · exact .inr ⟨e, _, hb'.pair_right hb⟩
    · exact .inr ⟨e, b, hb.pair_left g c⟩

instance (f : Field α) (g : Field β) [hf : f.Lawful] [hg : g.Lawful] : (f.pair g).Lawful where
  selfDelimiting :=
    hf.selfDelimiting.andThen fun _ => hg.selfDelimiting.andThen fun _ =>
      Reader.selfDelimiting_result _

theorem reads_pair (f : Field α) (g : Field β) [hf : f.Lawful] [hg : g.Lawful] {p : α × β}
    {b : Bytes} : (f.pair g).read.Reads b p ↔
      ∃ b₁ b₂, b = b₁ ++ b₂ ∧ f.read.Reads b₁ p.1 ∧ g.read.Reads b₂ p.2 := by
  rw [read_pair, hf.selfDelimiting.reads_andThen_iff fun _ =>
    hg.selfDelimiting.andThen fun _ => Reader.selfDelimiting_result _]
  simp only [hg.selfDelimiting.reads_andThen_result_iff]
  constructor
  · rintro ⟨a, b₁, b₂, rfl, ha, c, hc, rfl⟩
    exact ⟨b₁, b₂, rfl, ha, hc⟩
  · rintro ⟨b₁, b₂, rfl, ha, hc⟩
    exact ⟨p.1, b₁, b₂, rfl, ha, p.2, hc, rfl⟩

theorem writes_pair (f : Field α) (g : Field β) [hf : f.Appending] [hg : g.Appending] {p : α × β}
    {b : Bytes} : (f.pair g).Writes p b ↔
      ∃ b₁ b₂, b = b₁ ++ b₂ ∧ f.Writes p.1 b₁ ∧ g.Writes p.2 b₂ := by
  constructor
  · intro h
    rcases hf.writes_or_fails p.1 with ⟨b₁, hb₁⟩ | ⟨e, b₁, hb₁⟩
    · rcases hg.writes_or_fails p.2 with ⟨b₂, hb₂⟩ | ⟨e, b₂, hb₂⟩
      · exact ⟨b₁, b₂, h.unique (hb₁.pair hb₂), hb₁, hb₂⟩
      · exact absurd (hb₂.pair_right hb₁) h.not_fails
    · exact absurd (hb₁.pair_left g p.2) h.not_fails
  · rintro ⟨b₁, b₂, rfl, hb₁, hb₂⟩
    exact hb₁.pair hb₂

instance (f : Field α) (g : Field β) [hf : f.Canonical] [hg : g.Canonical] :
    (f.pair g).Canonical where
  reads_iff_writes := by
    intro p b
    simp only [reads_pair, writes_pair, hf.reads_iff_writes, hg.reads_iff_writes]

/-! ## Values under another type -/

variable {f : Field α} {accept : α → Except WireError β} {raw : β → α}

theorem writes_refine {v : β} {b : Bytes} :
    (f.refine accept raw).Writes v b ↔ f.Writes (raw v) b := Iff.rfl

theorem writes_iso {of : α → β} {v : β} {b : Bytes} :
    (f.iso of raw).Writes v b ↔ f.Writes (raw v) b := Iff.rfl

theorem fails_iso {of : α → β} {v : β} {e : WireError} {b : Bytes} :
    (f.iso of raw).Fails v e b ↔ f.Fails (raw v) e b := Iff.rfl

theorem read_refine :
    (f.refine accept raw).read = f.read.andThen fun a => Reader.verdict (accept a) := rfl

instance (f : Field α) (accept : α → Except WireError β) (raw : β → α) [hf : f.Appending] :
    (f.refine accept raw).Appending where
  writes_or_fails v := hf.writes_or_fails (raw v)

instance (f : Field α) (of : α → β) (raw : β → α) [f.Appending] : (f.iso of raw).Appending :=
  inferInstanceAs (f.refine _ raw).Appending

theorem Lawful.refine (hf : f.Lawful) (hv : ∀ a n, accept a ≠ .error (.trailingBytes n)) :
    (f.refine accept raw).Lawful where
  selfDelimiting := hf.selfDelimiting.andThen fun a => Reader.selfDelimiting_verdict (hv a)

theorem reads_refine (hf : f.Lawful) (hv : ∀ a n, accept a ≠ .error (.trailingBytes n)) {v : β}
    {b : Bytes} : (f.refine accept raw).read.Reads b v ↔
      ∃ a, f.read.Reads b a ∧ accept a = .ok v := by
  rw [read_refine, hf.selfDelimiting.reads_andThen_verdict_iff hv]

theorem Canonical.refine (hf : f.Canonical) (hv : ∀ a n, accept a ≠ .error (.trailingBytes n))
    (hacc : ∀ a v, accept a = .ok v ↔ a = raw v) : (f.refine accept raw).Canonical where
  toLawful := hf.toLawful.refine hv
  reads_iff_writes := by
    intro v b
    rw [reads_refine hf.toLawful hv, writes_refine, ← hf.reads_iff_writes]
    constructor
    · rintro ⟨a, ha, hv⟩
      rwa [← (hacc a v).mp hv]
    · intro h
      exact ⟨raw v, h, (hacc _ v).mpr rfl⟩

instance (f : Field α) (of : α → β) (raw : β → α) [hf : f.Lawful] : (f.iso of raw).Lawful :=
  hf.refine nofun

theorem bounded_iso {of : α → β} {raw : β → α} (hf : f.read.Bounded) : (f.iso of raw).read.Bounded :=
  hf.andThen fun a => Reader.bounded_verdict (.ok (of a))

theorem read_iso (f : Field α) (of : α → β) (raw : β → α) :
    (f.iso of raw).read = f.read.andThen fun a => .result (of a) := rfl

theorem read_iso_of_ok {of : α → β} {input : Bytes} {a : α} {n : Nat}
    (h : f.read input = .ok (a, n)) : (f.iso of raw).read input = .ok (of a, n) := by
  rw [read_iso, Reader.andThen_of_ok h]
  rfl

theorem read_iso_of_error {of : α → β} {input : Bytes} {e : WireError} (h : f.read input = .error e) :
    (f.iso of raw).read input = .error e := by
  rw [read_iso, Reader.andThen_of_error h]

/-- A value under another type is counted like the one that is read. -/
theorem read_iso_eq_ok {of : α → β} {input : Bytes} {v : β} {n : Nat}
    (h : (f.iso of raw).read input = .ok (v, n)) : ∃ a, f.read input = .ok (a, n) ∧ of a = v := by
  rw [read_iso] at h
  obtain ⟨a, m, k, ha, hv, rfl⟩ := Reader.andThen_eq_ok_iff.mp h
  cases hv
  exact ⟨a, ha, rfl⟩

theorem reads_iso (f : Field α) [hf : f.Lawful] {of : α → β} {raw : β → α} {v : β} {b : Bytes} :
    (f.iso of raw).read.Reads b v ↔ ∃ a, f.read.Reads b a ∧ of a = v := by
  rw [read_iso, hf.selfDelimiting.reads_andThen_result_iff]

/-- What is written under another type is read back if the way there and back gives the same value. -/
theorem reads_iso_of_writes [hf : f.Canonical] {of : α → β} {v : β} {b : Bytes}
    (hleft : of (raw v) = v) (h : (f.iso of raw).Writes v b) : (f.iso of raw).read.Reads b v :=
  (reads_iso f).mpr ⟨raw v, f.reads_of_writes h, hleft⟩

theorem Canonical.iso {of : α → β} {raw : β → α} (hf : f.Canonical) (hleft : ∀ v, of (raw v) = v)
    (hright : ∀ a, raw (of a) = a) : (f.iso of raw).Canonical := by
  refine hf.refine (by simp) fun a v => ?_
  rw [Except.ok.injEq]
  constructor
  · rintro rfl
    exact (hright a).symm
  · rintro rfl
    exact hleft v

end DeniableHandshake.Field
