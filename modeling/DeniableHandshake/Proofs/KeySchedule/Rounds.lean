import DeniableHandshake.Proofs.KeySchedule.Exchange
import DeniableHandshake.Proofs.KeySchedule.SharedHistory

/-!
# Two parties in rounds

In a round both parties generate keys, record the public halves of each other's keys and derive a
secret. If both have one, each takes a ratchet step with its own. Then each draws message keys on its
own schedule. Through any number of rounds the parties stay on the same ratchet step, and message keys
with the same label are the same.
-/
namespace DeniableHandshake

inductive Party
  | left
  | right
  deriving DecidableEq

def Party.peer : Party → Party
  | left => right
  | right => left

/-- What one party brings to a round: its randomness, and the chains that it will draw from. -/
structure Turn where
  entropy : Entropy
  draws : List Chain

/-- What one party has of a round. -/
structure Report where
  secret : Outcome
  /-- Nothing if one of the parties has no secret. -/
  ratchet : Option Outcome
  /-- The manager after the ratchet step and before the draws. -/
  manager : KeyManager
  draws : List (Chain × Outcome)

namespace KeyManager
open Session RatchetHistory

variable {σ : Type} (d : Derivation σ)

/-- Both parties generate keys, then each records the public halves of the other's. -/
def meet (turns : Party → Turn) (x : Party → KeyManager × σ) (p : Party) : KeyManager × σ :=
  let generated p := (step d (.generateKeys (turns p).entropy) (x p)).2
  let their := (generated p.peer).1
  (step d (.setTheirKeys their.ourCurve.point their.ourGroup.value) (generated p)).2

def secret? : Outcome → Option (Block sharedSecretSize)
  | .ok (.sharedSecret secret) => some secret
  | _ => none

/-- The ratchet step of a party, after both parties tried to derive a secret. -/
def ratchetBoth (x : Party → Outcome × KeyManager × σ) (p : Party) :
    Option Outcome × KeyManager × σ :=
  match secret? (x p).1, secret? (x p.peer).1 with
  | some secret, some _ =>
    let r := step d (.newRatchet secret.toList) (x p).2
    (some r.1, r.2)
  | _, _ => (none, (x p).2)

/-- The draws of a party, each with its chain, and what they leave. -/
def drawAll (chains : List Chain) (x : KeyManager × σ) : List (Chain × Outcome) × KeyManager × σ :=
  let r := run d (chains.map .nextMessageKeys) x
  (chains.zip r.1, r.2)

def playRound (turns : Party → Turn) (x : Party → KeyManager × σ) :
    (Party → Report) × (Party → KeyManager × σ) :=
  let derived p := step d .deriveSharedSecret (meet d turns x p)
  let stepped := ratchetBoth d derived
  let drawn p := drawAll d (turns p).draws (stepped p).2
  (fun p => ⟨(derived p).1, (stepped p).1, (stepped p).2.1, (drawn p).1⟩, fun p => (drawn p).2)

def play : List (Party → Turn) → (Party → KeyManager × σ) → List (Party → Report)
  | [], _ => []
  | turns :: rounds, x =>
    let r := playRound d turns x
    r.1 :: play rounds r.2

variable {d} {f : Query → (n : Nat) → Block n} {secrets : List Bytes} {x : Party → KeyManager × σ}

/-- Both parties are on the step that the secrets lead to, and their keys are their own. -/
structure Synchronized (f : Query → (n : Nat) → Block n) (secrets : List Bytes)
    (x : Party → KeyManager × σ) : Prop where
  follows : ∀ p, (x p).1.Follows f secrets
  ownKeys : ∀ p, (x p).1.OwnKeys

theorem Synchronized.new (s : Party → σ) : Synchronized f [] fun p => (.new, s p) :=
  ⟨fun _ => .new, fun _ => .new⟩

/-! ### The stages of a round -/

section Meet

variable {turns : Party → Turn} {p : Party}

theorem follows_meet (h : (x p).1.Follows f secrets) : (meet d turns x p).1.Follows f secrets := by
  have hgenerate : (step d (.generateKeys (turns p).entropy) (x p)).2.1.ratchet = (x p).1.ratchet :=
    step_preserves ((preserves_ratchet_generateKeys _).map _) (x p)
  exact h.of_ratchet_eq hgenerate

theorem ownKeys_meet (h : (x p).1.OwnKeys) : (meet d turns x p).1.OwnKeys := by
  have hgenerate := h.generateKeys d (turns p).entropy (x p).2
  exact hgenerate.of_ownPairs_eq rfl

theorem meets_meet : (meet d turns x p).1.Meets (meet d turns x p.peer).1 := ⟨rfl, rfl⟩

end Meet

theorem follows_deriveSharedSecret {m : KeyManager} (h : m.Follows f secrets) (s : σ) :
    (step d .deriveSharedSecret (m, s)).2.1.Follows f secrets :=
  h.of_ratchet_eq (step_preserves ((preserves_ratchet_deriveSharedSecret d).map _) (m, s))

/-- Two managers that met return the same secret and keep the same brace key, if both return one. -/
theorem deriveSharedSecret_agree (hd : d.Computes f) {m m' : KeyManager} {s s' : σ} {a b : Answer}
    (hown : m.OwnKeys) (hown' : m'.OwnKeys) (hmeets : m.Meets m') (hmeets' : m'.Meets m)
    (ha : (step d .deriveSharedSecret (m, s)).1 = .ok a)
    (hb : (step d .deriveSharedSecret (m', s')).1 = .ok b) :
    a = b ∧ (step d .deriveSharedSecret (m, s)).2.1.brace =
      (step d .deriveSharedSecret (m', s')).2.1.brace := by
  obtain ⟨y, hy, rfl, hmanager⟩ := exchanged_of_step hd ha
  obtain ⟨y', hy', rfl, hmanager'⟩ := exchanged_of_step hd hb
  have heq : y = y' := exchanged_eq hown hown' hmeets hmeets' hy hy'
  rw [hmanager, hmanager', heq]
  exact ⟨rfl, rfl⟩

section Draws

variable {y : KeyManager × σ}

theorem drawAll_cons (c : Chain) (chains : List Chain) (y : KeyManager × σ) :
    drawAll d (c :: chains) y =
      ((c, (step d (.nextMessageKeys c) y).1) ::
        (drawAll d chains (step d (.nextMessageKeys c) y).2).1,
        (drawAll d chains (step d (.nextMessageKeys c) y).2).2) := rfl

theorem follows_drawAll (hd : d.Computes f) (chains : List Chain) (h : y.1.Follows f secrets) :
    (drawAll d chains y).2.1.Follows f secrets ∧
      ∀ c k, (c, .ok (.messageKeys k)) ∈ (drawAll d chains y).1 →
        k = keysAt f secrets c k.messageId := by
  induction chains generalizing y with
  | nil => exact ⟨h, nofun⟩
  | cons c chains ih =>
    obtain ⟨hnext, hkeys⟩ := h.nextMessageKeys hd c y.2
    obtain ⟨hall, hmore⟩ := ih hnext
    rw [drawAll_cons]
    refine ⟨hall, ?_⟩
    intro c' k hmem
    cases List.mem_cons.mp hmem with
    | inl hfirst =>
      obtain ⟨rfl, hk⟩ := Prod.mk.inj hfirst
      exact hkeys k hk.symm
    | inr hlater => exact hmore c' k hlater

theorem exchangeHalf_drawAll (chains : List Chain) (y : KeyManager × σ) :
    (drawAll d chains y).2.1.exchangeHalf = y.1.exchangeHalf := by
  induction chains generalizing y with
  | nil => rfl
  | cons c chains ih =>
    rw [drawAll_cons, ih]
    exact step_preserves ((preserves_exchangeHalf_nextMessageKeys d c).map _) y

/-- Draws on the other chain leave a chain alone. -/
theorem preserves_chain_nextMessageKeys (d : Derivation σ) {c c' : Chain} (h : c ≠ c') :
    Preserves (fun m => m.current.chain c) (nextMessageKeys d c') := by
  apply preserves_nextMessageKeys
  intro m k
  rw [RatchetKeys.chain_setChain, if_neg h]

theorem mem_drawAll_first (hd : d.Computes f) {c : Chain} {before : List Chain} (hc : c ∉ before)
    (after : List Chain) {y : KeyManager × σ}
    (hroom : (y.1.current.chain c).messageId.toNat + 1 ≠ UInt32.size) :
    (c, .ok (.messageKeys ((y.1.current.chain c).messageKeys f))) ∈
      (drawAll d (before ++ c :: after) y).1 := by
  induction before generalizing y with
  | nil =>
    have hstep := (step_nextMessageKeys_of_room hd hroom y.2).1
    rw [List.nil_append, drawAll_cons, hstep]
    exact List.mem_cons_self
  | cons c' before ih =>
    have hne : c ≠ c' := fun he => hc (he ▸ List.mem_cons_self)
    have hpreserves : Preserves (fun m => m.current.chain c) (perform d (.nextMessageKeys c')) :=
      (preserves_chain_nextMessageKeys d hne).map Answer.messageKeys
    have hchain := step_preserves hpreserves y
    have hlater := ih (fun hmem => hc (List.mem_cons_of_mem _ hmem)) (hchain ▸ hroom)
    rw [hchain] at hlater
    rw [List.cons_append, drawAll_cons]
    exact List.mem_cons_of_mem _ hlater

end Draws

/-! ### The ratchet step of a round -/

section Ratchet

theorem secret?_eq_some_iff {o : Outcome} {a : Block sharedSecretSize} :
    secret? o = some a ↔ o = .ok (.sharedSecret a) := by
  unfold secret?
  split
  · simp
  · rename_i hother
    constructor
    · nofun
    · intro h
      exact absurd h (hother a)

theorem secret?_of_step (hd : d.Computes f) {m : KeyManager} {s : σ} {o : Answer}
    (h : (step d .deriveSharedSecret (m, s)).1 = .ok o) :
    ∃ a, secret? (step d .deriveSharedSecret (m, s)).1 = some a := by
  obtain ⟨z, -, rfl, -⟩ := exchanged_of_step hd h
  exact ⟨z.secret f, secret?_eq_some_iff.mpr h⟩

variable {y : Party → Outcome × KeyManager × σ} {p : Party} {a b : Block sharedSecretSize}

theorem ratchetBoth_of_some (ha : secret? (y p).1 = some a) (hb : secret? (y p.peer).1 = some b) :
    ratchetBoth d y p = (some (step d (.newRatchet a.toList) (y p).2).1,
      (step d (.newRatchet a.toList) (y p).2).2) := by
  simp only [ratchetBoth, ha, hb]

theorem ratchetBoth_of_none (h : secret? (y p).1 = none ∨ secret? (y p.peer).1 = none) :
    ratchetBoth d y p = (none, (y p).2) := by
  unfold ratchetBoth
  cases h with
  | inl hown => rw [hown]
  | inr hpeer =>
    rw [hpeer]
    cases secret? (y p).1 with
    | none => rfl
    | some a => rfl

theorem exchangeHalf_ratchetBoth (y : Party → Outcome × KeyManager × σ) (p : Party) :
    (ratchetBoth d y p).2.1.exchangeHalf = (y p).2.1.exchangeHalf := by
  cases ha : secret? (y p).1 with
  | none => rw [ratchetBoth_of_none (.inl ha)]
  | some a =>
    cases hb : secret? (y p.peer).1 with
    | none => rw [ratchetBoth_of_none (.inr hb)]
    | some b =>
      rw [ratchetBoth_of_some ha hb]
      exact step_preserves ((preserves_exchangeHalf_newRatchet d a.toList).map _) (y p).2

/-- The step succeeds as long as the index can still move on. -/
theorem ratchetBoth_succeeds (hd : d.Computes f) (h : (y p).2.1.Follows f secrets)
    (ha : secret? (y p).1 = some a) (hb : secret? (y p.peer).1 = some b) :
    (ratchetBoth d y p).1 = some (.ok .done) ∨
      (ratchetBoth d y p).2.1.index.toNat + 1 = UInt32.size := by
  rw [ratchetBoth_of_some ha hb]
  by_cases hlimit : (y p).2.1.index.toNat + 1 = UInt32.size
  · right
    have hstep := step_newRatchet_of_limit d hlimit a.toList (y p).2.2
    rw [hstep]
    exact hlimit
  · left
    have hlength := h.length_lt
    rw [h.index_toNat] at hlimit
    have hstep := h.newRatchet hd (by omega) a.toList (y p).2.2
    exact congrArg some hstep.1

theorem current_ratchetBoth (hd : d.Computes f) (ha : secret? (y p).1 = some a)
    (hb : secret? (y p.peer).1 = some b) (hroom : (y p).2.1.index.toNat + 1 ≠ UInt32.size) :
    (ratchetBoth d y p).2.1.current = .derived f ((y p).2.1.ratchetInput f a.toList) := by
  rw [ratchetBoth_of_some ha hb, (step_newRatchet_of_room hd a.toList hroom (y p).2.2).2]

/-- Both parties take the step with the same secret, or neither takes one. -/
theorem follows_ratchetBoth (hd : d.Computes f) (h : ∀ p, (y p).2.1.Follows f secrets)
    (hagree : ∀ p a b, secret? (y p).1 = some a → secret? (y p.peer).1 = some b → a = b) :
    ∃ secrets', secrets <+: secrets' ∧ ∀ p, (ratchetBoth d y p).2.1.Follows f secrets' := by
  by_cases hboth : ∃ a, ∀ p, secret? (y p).1 = some a
  · obtain ⟨a, ha⟩ := hboth
    have hstep (p : Party) : (ratchetBoth d y p).2 = (step d (.newRatchet a.toList) (y p).2).2 := by
      rw [ratchetBoth_of_some (ha p) (ha p.peer)]
    by_cases hroom : secrets.length + 1 < UInt32.size
    · refine ⟨secrets ++ [a.toList], List.prefix_append _ _, ?_⟩
      intro p
      rw [hstep]
      exact ((h p).newRatchet hd hroom a.toList (y p).2.2).2
    · refine ⟨secrets, List.prefix_rfl, ?_⟩
      intro p
      have hlength := (h p).length_lt
      have hlimit : (y p).2.1.index.toNat + 1 = UInt32.size := by
        rw [(h p).index_toNat]
        omega
      have hsame := step_newRatchet_of_limit d hlimit a.toList (y p).2.2
      rw [hstep, hsame]
      exact h p
  · refine ⟨secrets, List.prefix_rfl, ?_⟩
    intro p
    have hnone : secret? (y p).1 = none ∨ secret? (y p.peer).1 = none := by
      cases ha : secret? (y p).1 with
      | none => exact .inl rfl
      | some a =>
        cases hb : secret? (y p.peer).1 with
        | none => exact .inr rfl
        | some b =>
          have heq := hagree p a b ha hb
          subst heq
          refine absurd ⟨a, ?_⟩ hboth
          intro q
          cases p <;> cases q <;> assumption
    rw [ratchetBoth_of_none hnone]
    exact h p

end Ratchet

/-! ### Rounds -/

/-- What the reports of one round say, on the step that the secrets lead to. -/
structure Told (f : Query → (n : Nat) → Block n) (secrets : List Bytes) (r : Party → Report) :
    Prop where
  follows : ∀ p, (r p).manager.Follows f secrets
  agree : ∀ a b, (r .left).secret = .ok a → (r .right).secret = .ok b →
    a = b ∧ (r .left).manager.brace = (r .right).manager.brace ∧
      ∀ p, (r p).ratchet = some (.ok .done) ∨ (r p).manager.index.toNat + 1 = UInt32.size
  keys : ∀ p c k, (c, .ok (.messageKeys k)) ∈ (r p).draws → k = keysAt f secrets c k.messageId

theorem playRound_told (hd : d.Computes f) (turns : Party → Turn) (hx : Synchronized f secrets x) :
    ∃ secrets', secrets <+: secrets' ∧ Told f secrets' (playRound d turns x).1 ∧
      Synchronized f secrets' (playRound d turns x).2 := by
  let met := meet d turns x
  let derived := fun p => step d .deriveSharedSecret (met p)
  let stepped := ratchetBoth d derived
  have hmet (p : Party) : (met p).1.Follows f secrets := follows_meet (hx.follows p)
  have hown (p : Party) : (met p).1.OwnKeys := ownKeys_meet (hx.ownKeys p)
  have hderived (p : Party) : (derived p).2.1.Follows f secrets :=
    follows_deriveSharedSecret (hmet p) (met p).2
  have hagree (p : Party) {a b : Answer} (ha : (derived p).1 = .ok a)
      (hb : (derived p.peer).1 = .ok b) : a = b ∧ (derived p).2.1.brace = (derived p.peer).2.1.brace := by
    have hmeets : (met p.peer).1.Meets (met p).1 := by
      cases p <;> exact meets_meet
    exact deriveSharedSecret_agree hd (hown p) (hown p.peer) meets_meet hmeets ha hb
  have hsecret (p : Party) (a b : Block sharedSecretSize) (ha : secret? (derived p).1 = some a)
      (hb : secret? (derived p.peer).1 = some b) : a = b := by
    have heq := (hagree p (secret?_eq_some_iff.mp ha) (secret?_eq_some_iff.mp hb)).1
    exact Answer.sharedSecret.inj heq
  obtain ⟨secrets', hprefix, hstepped⟩ := follows_ratchetBoth hd hderived hsecret
  have hhalf (p : Party) : (stepped p).2.1.exchangeHalf = (derived p).2.1.exchangeHalf :=
    exchangeHalf_ratchetBoth derived p
  have hdrawn (p : Party) := follows_drawAll hd (turns p).draws (hstepped p)
  refine ⟨secrets', hprefix, ⟨hstepped, ?_, fun p => (hdrawn p).2⟩, fun p => (hdrawn p).1, ?_⟩
  · intro a b ha hb
    obtain ⟨hsame, hbrace⟩ := hagree .left ha hb
    refine ⟨hsame, ?_, ?_⟩
    · have hleft := congrArg (·.2.2) (hhalf .left)
      have hright := congrArg (·.2.2) (hhalf .right)
      exact hleft.trans (hbrace.trans hright.symm)
    · intro p
      obtain ⟨c, hc⟩ := secret?_of_step hd ha
      obtain ⟨c', hc'⟩ := secret?_of_step hd hb
      cases p with
      | left => exact ratchetBoth_succeeds hd (hderived .left) hc hc'
      | right => exact ratchetBoth_succeeds hd (hderived .right) hc' hc
  · intro p
    have hkept : (derived p).2.1.OwnKeys :=
      (hown p).of_ownPairs_eq (step_preserves ((preserves_ownPairs_deriveSharedSecret d).map _) _)
    have hall := (exchangeHalf_drawAll (d := d) (turns p).draws (stepped p).2).trans (hhalf p)
    exact hkept.of_ownPairs_eq (congrArg Prod.fst hall)

/-- The reports of a whole play, each on a step that is still to be found in the final secrets. -/
theorem play_told (hd : d.Computes f) (rounds : List (Party → Turn))
    (hx : Synchronized f secrets x) :
    ∃ all, secrets <+: all ∧ ∀ r ∈ play d rounds x, ∃ secrets', secrets' <+: all ∧ Told f secrets' r := by
  induction rounds generalizing secrets x with
  | nil => exact ⟨secrets, List.prefix_rfl, nofun⟩
  | cons turns rounds ih =>
    obtain ⟨secrets', hprefix, htold, hnext⟩ := playRound_told hd turns hx
    obtain ⟨all, hall, hlater⟩ := ih hnext
    refine ⟨all, hprefix.trans hall, ?_⟩
    intro r hr
    cases List.mem_cons.mp hr with
    | inl hfirst =>
      subst hfirst
      exact ⟨secrets', hall, htold⟩
    | inr hmore => exact hlater r hmore

/-! ### A round that succeeds -/

/-- The keys of each party, with the public halves of its peer's. -/
def metKeys (k : Party → Curve448.Keypair × Modp3072.Keypair) (p : Party) : KeyManager :=
  { new with
    ourCurve := (k p).1
    ourGroup := (k p).2
    theirPoint := (k p.peer).1.point
    theirValue := (k p.peer).2.value }

theorem exchanged_meet {turns : Party → Turn} {k : Party → Curve448.Keypair × Modp3072.Keypair}
    (hk : ∀ p, generated (turns p).entropy = .ok (k p)) (x : Party → KeyManager × σ) (p : Party) :
    (meet d turns x p).1.exchanged = (metKeys k p).exchanged := by
  have hgenerate (q : Party) : step d (.generateKeys (turns q).entropy) (x q) =
      (.ok .done, { (x q).1 with ourCurve := (k q).1, ourGroup := (k q).2 }, (x q).2) := by
    have hstep := step_generateKeys d (turns q).entropy (x q).1 (x q).2
    rwa [hk q] at hstep
  simp only [meet, hgenerate]
  rfl

/-- A small scalar and a small exponent, and draws that differ between the parties. -/
def sampleTurns : Party → Turn
  | .left => ⟨[.ok [4], .ok (List.replicate 79 0 ++ [4])], [.b, .a]⟩
  | .right => ⟨[.ok [8], .ok (List.replicate 79 0 ++ [8])], [.a, .a, .b]⟩

def sampleKeys : Party → Curve448.Keypair × Modp3072.Keypair
  | .left => (⟨.fit 56 [4], ⟨Curve448.x448 (.fit 56 [4]) .base⟩⟩,
      .ofExponent (.fit 80 (List.replicate 79 0 ++ [4])))
  | .right => (⟨.fit 56 [8], ⟨Curve448.x448 (.fit 56 [8]) .base⟩⟩,
      .ofExponent (.fit 80 (List.replicate 79 0 ++ [8])))

theorem generated_sampleTurns (p : Party) :
    generated (sampleTurns p).entropy = .ok (sampleKeys p) := by
  cases p <;> rfl

theorem exchanged_sampleKeys (p : Party) : ∃ z, (metKeys sampleKeys p).exchanged = .ok z := by
  have hcurve : (metKeys sampleKeys p).ourCurve.isEmpty = false ∧
      (metKeys sampleKeys p).theirPoint.isZero = false ∧
      (metKeys sampleKeys p).theirPoint.isRefused = false ∧
      (Curve448.x448 (metKeys sampleKeys p).ourCurve.scalar
        (metKeys sampleKeys p).theirPoint).isZero = false := by
    cases p <;> decide +kernel
  have hgroup : (metKeys sampleKeys p).ourGroup.isEmpty = false ∧
      (metKeys sampleKeys p).theirValue.isZero = false := by
    cases p <;> decide +kernel
  have hvalid : (metKeys sampleKeys p).theirValue.isValid = true := by
    cases p with
    | left =>
      exact Modp3072.Value.isValid_ofNat_power (by decide +kernel) (by decide +kernel)
        (by decide +kernel)
    | right =>
      exact Modp3072.Value.isValid_ofNat_power (by decide +kernel) (by decide +kernel)
        (by decide +kernel)
  obtain ⟨hown, hpoint, hrefused, hzero⟩ := hcurve
  have hshared := Curve448.Keypair.shared_eq_ok_iff.mpr ⟨hrefused, hzero, rfl⟩
  have hpower := Modp3072.Keypair.shared_eq_ok_iff.mpr ⟨hgroup.1, hvalid, rfl⟩
  exact ⟨(_, _), exchanged_eq_ok_iff.mpr ⟨hown, hpoint, hgroup.2, hshared, hpower⟩⟩

/-- Both parties have a secret in a round of these turns, whatever they bring from before. -/
theorem secret_of_sampleTurns (hd : d.Computes f) (x : Party → KeyManager × σ) (p : Party) :
    ∃ a, ((playRound d sampleTurns x).1 p).secret = .ok (.sharedSecret a) := by
  obtain ⟨z, hz⟩ := exchanged_sampleKeys p
  rw [← exchanged_meet (d := d) generated_sampleTurns x p] at hz
  exact ⟨z.secret f, (step_deriveSharedSecret_of_ok hd hz (meet d sampleTurns x p).2).1⟩

/-- In the first round the first draw on a chain succeeds if both parties have a secret. -/
theorem mem_draws_first (hd : d.Computes f) (turns : Party → Turn) (s : Party → σ) {p : Party}
    {a b : Block sharedSecretSize} {c : Chain} {before after : List Chain}
    (ha : ((playRound d turns fun p => (new, s p)).1 p).secret = .ok (.sharedSecret a))
    (hb : ((playRound d turns fun p => (new, s p)).1 p.peer).secret = .ok (.sharedSecret b))
    (hdraws : (turns p).draws = before ++ c :: after) (hc : c ∉ before) : ∃ k,
    (c, .ok (.messageKeys k)) ∈ ((playRound d turns fun p => (new, s p)).1 p).draws ∧
      k.messageId = 0 := by
  let met := meet d turns fun p => (new, s p)
  let derived := fun p => step d .deriveSharedSecret (met p)
  have hmet : (met p).1.Follows f [] := follows_meet ((Synchronized.new s).follows p)
  have hfollows : (derived p).2.1.Follows f [] := follows_deriveSharedSecret hmet (met p).2
  have hindex : (derived p).2.1.index.toNat = 0 := hfollows.index_toNat
  have hroom : (derived p).2.1.index.toNat + 1 ≠ UInt32.size := by
    rw [hindex]
    decide
  have hcurrent := current_ratchetBoth (y := derived) hd (secret?_eq_some_iff.mpr ha)
    (secret?_eq_some_iff.mpr hb) hroom
  have hfresh : ((ratchetBoth d derived p).2.1.current.chain c).messageId = 0 := by
    rw [hcurrent]
    cases c <;> rfl
  have hmem := mem_drawAll_first hd hc after (y := (ratchetBoth d derived p).2) (by rw [hfresh]; decide)
  rw [← hdraws] at hmem
  exact ⟨_, hmem, hfresh⟩

/-! ### Agreement -/

/-- Two parties that play any number of rounds from new managers derive equal secrets whenever both
derive one, keep equal brace keys then, stay on the same ratchet step, and draw the same message keys
under the same label. -/
theorem play_agrees (hd : d.Computes f) (rounds : List (Party → Turn)) (s : Party → σ) :
    let reports := play d rounds fun p => (new, s p)
    (∀ r ∈ reports,
      (∀ a b, (r .left).secret = .ok a → (r .right).secret = .ok b →
        a = b ∧ (r .left).manager.brace = (r .right).manager.brace ∧
          ∀ p, (r p).ratchet = some (.ok .done) ∨ (r p).manager.index.toNat + 1 = UInt32.size) ∧
      (r .left).manager.index = (r .right).manager.index ∧
      (r .left).manager.current.root = (r .right).manager.current.root) ∧
    ∀ r ∈ reports, ∀ r' ∈ reports, (r .left).manager.index = (r' .right).manager.index →
      ∀ c k k', (c, .ok (.messageKeys k)) ∈ (r .left).draws →
        (c, .ok (.messageKeys k')) ∈ (r' .right).draws → k.messageId = k'.messageId →
        k.encryption = k'.encryption ∧ k.mac = k'.mac := by
  intro reports
  obtain ⟨all, -, htold⟩ := play_told hd rounds (Synchronized.new s)
  constructor
  · intro r hr
    obtain ⟨secrets, -, ht⟩ := htold r hr
    have hleft := ht.follows .left
    have hright := ht.follows .right
    exact ⟨ht.agree, hleft.index_eq hright, hleft.root_eq hright⟩
  · intro r hr r' hr' hindex c k k' hk hk' hid
    obtain ⟨secrets, hprefix, ht⟩ := htold r hr
    obtain ⟨secrets', hprefix', ht'⟩ := htold r' hr'
    have hsame : secrets = secrets' :=
      (ht.follows .left).secrets_eq (ht'.follows .right) hprefix hprefix' hindex
    have hkeys : k = k' := by
      rw [ht.keys .left c k hk, ht'.keys .right c k' hk', hsame, hid]
    rw [hkeys]
    exact ⟨rfl, rfl⟩

theorem play_agrees_sampleTurns : (Derivation.shake : Derivation Unit).Computes Query.shake ∧
    ∃ r r', play (.shake : Derivation Unit) [sampleTurns, sampleTurns] (fun _ => (new, ())) = [r, r'] ∧
      (∃ a, (r .left).secret = .ok a ∧ (r .right).secret = .ok a) ∧
      (∃ a, (r' .left).secret = .ok a ∧ (r' .right).secret = .ok a) ∧
      (r .left).manager.brace = (r .right).manager.brace ∧
      (r' .left).manager.current.root = (r' .right).manager.current.root ∧
      ∃ k k', (.a, .ok (.messageKeys k)) ∈ (r .left).draws ∧
        (.a, .ok (.messageKeys k')) ∈ (r .right).draws ∧ k.messageId = 0 ∧ k'.messageId = 0 ∧
        k.encryption = k'.encryption ∧ k.mac = k'.mac := by
  have hd : (Derivation.shake : Derivation Unit).Computes Query.shake := Derivation.computes_shake
  let start : Party → KeyManager × Unit := fun _ => (new, ())
  let first := playRound .shake sampleTurns start
  let second := playRound .shake sampleTurns first.2
  obtain ⟨hrounds, hlabels⟩ := play_agrees hd [sampleTurns, sampleTurns] fun _ => ()
  have hmem : first.1 ∈ [first.1, second.1] := List.mem_cons_self
  have hmem' : second.1 ∈ [first.1, second.1] := List.mem_cons_of_mem _ List.mem_cons_self
  obtain ⟨hagree, hindex, -⟩ := hrounds first.1 hmem
  obtain ⟨hagree', -, hroot'⟩ := hrounds second.1 hmem'
  obtain ⟨a, ha⟩ := secret_of_sampleTurns hd start .left
  obtain ⟨b, hb⟩ := secret_of_sampleTurns hd start .right
  obtain ⟨a', ha'⟩ := secret_of_sampleTurns hd first.2 .left
  obtain ⟨b', hb'⟩ := secret_of_sampleTurns hd first.2 .right
  obtain ⟨hsame, hbrace, -⟩ := hagree _ _ ha hb
  obtain ⟨hsame', -, -⟩ := hagree' _ _ ha' hb'
  have hdraws : (sampleTurns .left).draws = [.b] ++ .a :: [] := rfl
  have hdraws' : (sampleTurns .right).draws = [] ++ .a :: [.a, .b] := rfl
  obtain ⟨k, hk, hid⟩ := mem_draws_first hd sampleTurns (fun _ => ()) ha hb hdraws (by decide)
  obtain ⟨k', hk', hid'⟩ := mem_draws_first hd sampleTurns (fun _ => ()) hb ha hdraws' (by decide)
  have hkeys := hlabels first.1 hmem first.1 hmem hindex .a k k' hk hk' (hid.trans hid'.symm)
  exact ⟨hd, first.1, second.1, rfl, ⟨_, ha, hsame ▸ hb⟩, ⟨_, ha', hsame' ▸ hb'⟩, hbrace, hroot', k, k',
    hk, hk', hid, hid', hkeys⟩

end KeyManager

end DeniableHandshake
