import DeniableHandshake.Proofs.KeySchedule.ExchangeHistory
import DeniableHandshake.Proofs.KeySchedule.Reuse

/-!
# What a manager asks a derivation, and what for

Under a derivation that never fails, what an operation asks is told by the manager that it finds, each query
with its purpose: the answer becomes a key or a secret, or the keys of a ratchet step are derived from it.
The bytes that are hashed for a purpose have a fixed length, if the secrets of the ratchet steps are whole
shared secrets, and all but those of one purpose begin with the tag of the purpose. The bytes of that one
purpose have a length of their own, so no bytes are hashed for two purposes.
-/
namespace DeniableHandshake
open Session

/-! ### Purposes and their inputs -/

/-- What the answer to a query is for: something derived under a tag, or the input of a ratchet step, mixed
from the root key and a secret without a tag. -/
inductive Purpose
  | derived (u : Usage)
  | mixed
  deriving DecidableEq

/-- The length of what is derived from. -/
def Usage.secretSize : Usage → Nat
  | rootKey => sharedSecretSize
  | chainKeyA => sharedSecretSize
  | chainKeyB => sharedSecretSize
  | braceKey => Modp3072.width
  | sharedSecret => Curve448.pointSize + braceKeySize
  | messageKey => chainKeySize
  | macKey => chainKeySize
  | nextChainKey => chainKeySize

namespace Purpose
variable {p p' : Purpose} {q q' : Query}

/-- The length of the bytes that are hashed. -/
def inputSize : Purpose → Nat
  | derived u => u.secretSize + 1
  | mixed => rootKeySize + sharedSecretSize

/-- The form of the queries for a purpose. -/
def Fits : Purpose → Query → Prop
  | derived u, q => ∃ secret, q = u.query secret ∧ secret.length = u.secretSize
  | mixed, q => ∃ key secret, q = .keyed key secret ∧ key.length = rootKeySize ∧
    secret.length = sharedSecretSize

theorem Fits.length_input (h : p.Fits q) : q.input.length = p.inputSize := by
  cases p with
  | derived u =>
    obtain ⟨secret, rfl, hsecret⟩ := h
    exact congrArg (· + 1) hsecret
  | mixed =>
    obtain ⟨key, secret, rfl, hkey, hsecret⟩ := h
    rw [Query.input, List.length_append, hkey, hsecret]
    rfl

theorem inputSize_derived_ne (u : Usage) : (derived u).inputSize ≠ mixed.inputSize := by
  cases u <;> decide

/-- Bytes with a tag tell their purpose by the tag, bytes without one by their length. -/
theorem Fits.input_ne (h : p.Fits q) (h' : p'.Fits q') (hne : p ≠ p') : q.input ≠ q'.input := by
  intro hinput
  have hsize : p.inputSize = p'.inputSize := by rw [← h.length_input, ← h'.length_input, hinput]
  cases p with
  | derived u =>
    cases p' with
    | derived u' =>
      obtain ⟨secret, rfl, -⟩ := h
      obtain ⟨secret', rfl, -⟩ := h'
      have htag : u.tag = u'.tag := (List.cons.inj hinput).1
      exact hne (congrArg derived (Usage.tag_inj.mp htag))
    | mixed => exact inputSize_derived_ne u hsize
  | mixed =>
    cases p' with
    | derived u' => exact inputSize_derived_ne u' hsize.symm
    | mixed => exact hne rfl

/-- What becomes of the answer in a step, by its outcome and the manager that it leaves. -/
def Becomes (f : Query → (n : Nat) → Block n) (op : Operation) (outcome : Outcome) (m : KeyManager)
    (answer : Bytes) : Purpose → Prop
  | derived .rootKey => m.current.root.toList = answer
  | derived .chainKeyA => m.current.chainA.key.toList = answer
  | derived .chainKeyB => m.current.chainB.key.toList = answer
  | derived .braceKey => m.brace.toList = answer
  | derived .sharedSecret => ∃ k, outcome = .ok (.sharedSecret k) ∧ k.toList = answer
  | derived .messageKey => ∃ k, outcome = .ok (.messageKeys k) ∧ k.encryption.toList = answer
  | derived .macKey => ∃ k, outcome = .ok (.messageKeys k) ∧ k.mac.toList = answer
  | derived .nextChainKey => ∃ c, op = .nextMessageKeys c ∧ (m.current.chain c).key.toList = answer
  | mixed => m.current = .derived f answer

end Purpose

/-- A query that is answered for a purpose. -/
structure Call where
  purpose : Purpose
  response : Response
  deriving DecidableEq

namespace Call
variable (f : Query → (n : Nat) → Block n)

def input (c : Call) : Bytes := c.response.query.input

def derive (u : Usage) (secret : Bytes) (n : Nat) : Call := ⟨.derived u, .of f (u.query secret) n⟩

def mix (root : Block rootKeySize) (secret : Bytes) : Call :=
  ⟨.mixed, .of f (.keyed root.toList secret) sharedSecretSize⟩

theorem fits_derive {u : Usage} {secret : Bytes} (h : secret.length = u.secretSize) (n : Nat) :
    (derive f u secret n).purpose.Fits (derive f u secret n).response.query := ⟨secret, rfl, h⟩

theorem fits_mix (root : Block rootKeySize) {secret : Bytes} (h : secret.length = sharedSecretSize) :
    (mix f root secret).purpose.Fits (mix f root secret).response.query :=
  ⟨root.toList, secret, rfl, root.length_toList, h⟩

end Call

/-- The secret of a ratchet step is as long as a shared secret. -/
def Operation.GivesWholeSecret : Operation → Prop
  | .newRatchet secret => secret.length = sharedSecretSize
  | _ => True

namespace KeyManager

/-! ### The calls of an operation -/

section Calls

variable (f : Query → (n : Nat) → Block n)

def agreementCalls (x : ExchangedBytes) : List Call :=
  [.derive f .braceKey x.2.toList braceKeySize,
    .derive f .sharedSecret (x.1.toList ++ (x.brace f).toList) sharedSecretSize]

def keyCalls (input : Bytes) : List Call :=
  [.derive f .rootKey input rootKeySize, .derive f .chainKeyA input chainKeySize,
    .derive f .chainKeyB input chainKeySize]

def ratchetCalls (m : KeyManager) (secret : Bytes) : List Call :=
  (if m.index = 0 then [] else [.mix f m.current.root secret]) ++ keyCalls f (m.ratchetInput f secret)

def drawCalls (c : ChainKey) : List Call :=
  [.derive f .messageKey c.key.toList messageKeySize, .derive f .macKey c.key.toList macKeySize,
    .derive f .nextChainKey c.key.toList chainKeySize]

/-- What an operation asks, in order. Nothing is asked before the checks and the exchanges are done. -/
def calls (m : KeyManager) : Operation → List Call
  | .generateKeys _ => []
  | .setTheirKeys _ _ => []
  | .deriveSharedSecret =>
    match m.exchanged with
    | .ok x => agreementCalls f x
    | .error _ => []
  | .newRatchet secret => if m.index.toNat + 1 = UInt32.size then [] else m.ratchetCalls f secret
  | .nextMessageKeys c =>
    if (m.current.chain c).messageId.toNat + 1 = UInt32.size then [] else drawCalls f (m.current.chain c)
  | .destroy => []

end Calls

variable {σ : Type} {d : Derivation σ} {f : Query → (n : Nat) → Block n} {m : KeyManager} {s : σ}
  {op : Operation} {c : Call}

theorem mem_agreementCalls {x : ExchangedBytes} (hc : c ∈ agreementCalls f x) :
    c = .derive f .braceKey x.2.toList braceKeySize ∨
      c = .derive f .sharedSecret (x.1.toList ++ (x.brace f).toList) sharedSecretSize := by
  simpa [agreementCalls] using hc

theorem mem_keyCalls {input : Bytes} (hc : c ∈ keyCalls f input) :
    c = .derive f .rootKey input rootKeySize ∨ c = .derive f .chainKeyA input chainKeySize ∨
      c = .derive f .chainKeyB input chainKeySize := by
  simpa [keyCalls] using hc

theorem mem_drawCalls {k : ChainKey} (hc : c ∈ drawCalls f k) :
    c = .derive f .messageKey k.key.toList messageKeySize ∨
      c = .derive f .macKey k.key.toList macKeySize ∨
      c = .derive f .nextChainKey k.key.toList chainKeySize := by
  simpa [drawCalls] using hc

theorem mem_ratchetCalls {secret : Bytes} (hc : c ∈ m.ratchetCalls f secret) :
    (m.index ≠ 0 ∧ c = .mix f m.current.root secret) ∨ c ∈ keyCalls f (m.ratchetInput f secret) := by
  rw [ratchetCalls, List.mem_append] at hc
  refine hc.imp_left fun hmix => ?_
  split at hmix
  · cases hmix
  · exact ⟨‹_›, List.mem_singleton.mp hmix⟩

theorem map_response_ratchetCalls (m : KeyManager) (secret : Bytes) :
    (m.ratchetCalls f secret).map (·.response) = m.ratchetResponses f secret := by
  unfold ratchetCalls ratchetResponses
  split
  · rfl
  · rfl

/-- Only agreements, ratchet steps and draws ask, each once its checks are passed. -/
theorem mem_calls (hc : c ∈ m.calls f op) :
    (op = .deriveSharedSecret ∧ ∃ x, m.exchanged = .ok x ∧ c ∈ agreementCalls f x) ∨
    (∃ secret, op = .newRatchet secret ∧ m.index.toNat + 1 ≠ UInt32.size ∧ c ∈ m.ratchetCalls f secret) ∨
    ∃ chain, op = .nextMessageKeys chain ∧ (m.current.chain chain).messageId.toNat + 1 ≠ UInt32.size ∧
      c ∈ drawCalls f (m.current.chain chain) := by
  cases op with
  | generateKeys _ => cases hc
  | setTheirKeys _ _ => cases hc
  | deriveSharedSecret =>
    rw [calls] at hc
    cases hx : m.exchanged with
    | error e =>
      rw [hx] at hc
      cases hc
    | ok x =>
      rw [hx] at hc
      exact .inl ⟨rfl, x, rfl, hc⟩
  | newRatchet secret =>
    rw [calls] at hc
    split at hc
    · cases hc
    · exact .inr (.inl ⟨secret, rfl, ‹_›, hc⟩)
  | nextMessageKeys chain =>
    rw [calls] at hc
    split at hc
    · cases hc
    · exact .inr (.inr ⟨chain, rfl, ‹_›, hc⟩)
  | destroy => cases hc

/-- The calls of an operation are what it adds to the record. -/
theorem record_step (hd : d.Computes f) (op : Operation) (m : KeyManager) (s : σ) (l : List Response) :
    (step d.recorded op (m, s, l)).2.2.2 = l ++ (m.calls f op).map (·.response) := by
  have hanswers := hd.recorded
  cases op with
  | generateKeys entropy =>
    rw [step_generateKeys]
    cases generated entropy with
    | ok k => exact (List.append_nil l).symm
    | error e => exact (List.append_nil l).symm
  | setTheirKeys point value => exact (List.append_nil l).symm
  | deriveSharedSecret =>
    rw [calls]
    cases hx : m.exchanged with
    | error e =>
      rw [step_deriveSharedSecret_eq_of_error d.recorded hx]
      exact (List.append_nil l).symm
    | ok x =>
      have hok := (step_deriveSharedSecret_of_ok hanswers hx (s, l)).1
      have hperform : Yields (perform d.recorded .deriveSharedSecret) m (.sharedSecret _) _ _ :=
        (yields_deriveSharedSecret hd.agreesWith hx).map _
      exact (step_of_yields hperform hok).2.2
  | newRatchet secret =>
    rw [calls]
    split
    · rw [step_newRatchet_of_limit d.recorded ‹_›]
      exact (List.append_nil l).symm
    · have hok := (step_newRatchet_of_room hanswers secret ‹_› (s, l)).1
      rw [map_response_ratchetCalls]
      exact (step_newRatchet_of_ok hd.agreesWith hok).2.2
  | nextMessageKeys chain =>
    rw [calls]
    split
    · rw [step_nextMessageKeys_of_limit d.recorded ‹_›]
      exact (List.append_nil l).symm
    · have hok := (step_nextMessageKeys_of_room hanswers ‹_› (s, l)).1
      exact (step_nextMessageKeys_of_ok hd.agreesWith hok).2.2.2
  | destroy => exact (List.append_nil l).symm

/-- What is asked for a purpose becomes what the purpose says. -/
theorem becomes_of_mem_calls (hd : d.Computes f) (hc : c ∈ m.calls f op) (s : σ) :
    c.purpose.Becomes f op (step d op (m, s)).1 (step d op (m, s)).2.1 c.response.answer := by
  obtain ⟨rfl, x, hx, hcall⟩ | ⟨secret, rfl, hroom, hcall⟩ | ⟨chain, rfl, hroom, hcall⟩ := mem_calls hc
  · obtain ⟨hanswer, hmanager⟩ := step_deriveSharedSecret_of_ok hd hx s
    rw [hanswer, hmanager]
    obtain rfl | rfl := mem_agreementCalls hcall
    · exact rfl
    · exact ⟨_, rfl, rfl⟩
  · rw [(step_newRatchet_of_room hd secret hroom s).2]
    obtain ⟨hlater, rfl⟩ | hkey := mem_ratchetCalls hcall
    · simp only [Call.mix, Purpose.Becomes, ratchetInput, if_neg hlater]
      rfl
    · obtain rfl | rfl | rfl := mem_keyCalls hkey
      · exact rfl
      · exact rfl
      · exact rfl
  · obtain ⟨hanswer, hmanager⟩ := step_nextMessageKeys_of_room hd hroom s
    rw [hanswer, hmanager]
    obtain rfl | rfl | rfl := mem_drawCalls hcall
    · exact ⟨_, rfl, rfl⟩
    · exact ⟨_, rfl, rfl⟩
    · refine ⟨chain, rfl, ?_⟩
      rw [RatchetKeys.chain_setChain, if_pos rfl]
      rfl

theorem length_ratchetInput (m : KeyManager) {secret : Bytes} (h : secret.length = sharedSecretSize) :
    (m.ratchetInput f secret).length = sharedSecretSize := by
  unfold ratchetInput
  split
  · exact h
  · exact Block.length_toList _

theorem fits_of_mem_calls (hop : op.GivesWholeSecret) (hc : c ∈ m.calls f op) :
    c.purpose.Fits c.response.query := by
  obtain ⟨rfl, x, -, hcall⟩ | ⟨secret, rfl, -, hcall⟩ | ⟨chain, rfl, -, hcall⟩ := mem_calls hc
  · have hboth : (x.1.toList ++ (x.brace f).toList).length = Curve448.pointSize + braceKeySize := by
      rw [List.length_append, x.1.length_toList, (x.brace f).length_toList]
    obtain rfl | rfl := mem_agreementCalls hcall
    · exact Call.fits_derive f x.2.length_toList _
    · exact Call.fits_derive f hboth _
  · have hinput := length_ratchetInput (f := f) m hop
    obtain ⟨-, rfl⟩ | hkey := mem_ratchetCalls hcall
    · exact Call.fits_mix f m.current.root hop
    · obtain rfl | rfl | rfl := mem_keyCalls hkey
      · exact Call.fits_derive f hinput _
      · exact Call.fits_derive f hinput _
      · exact Call.fits_derive f hinput _
  · have hkey := (m.current.chain chain).key.length_toList
    obtain rfl | rfl | rfl := mem_drawCalls hcall
    · exact Call.fits_derive f hkey _
    · exact Call.fits_derive f hkey _
    · exact Call.fits_derive f hkey _

/-! ### The calls of a run -/

/-- What a run asks, in order. -/
def runCalls (d : Derivation σ) (f : Query → (n : Nat) → Block n) (ops : List Operation)
    (x : KeyManager × σ) : List Call :=
  (trace d ops x).flatMap fun p => p.1.calls f p.2.1

theorem record_run (hd : d.Computes f) (ops : List Operation) (m : KeyManager) (s : σ)
    (l : List Response) : (run d.recorded ops (m, s, l)).2.2.2 =
      l ++ (runCalls d f ops (m, s)).map (·.response) := by
  induction ops generalizing m s l with
  | nil => exact (List.append_nil l).symm
  | cons op ops ih =>
    -- the recorded step is the step with something new in the record, which are its calls
    obtain ⟨new, hstep, -⟩ := step_recorded d op m s l
    have hnew := record_step hd op m s l
    rw [hstep] at hnew
    obtain rfl := List.append_cancel_left hnew
    have hrest := ih (step d op (m, s)).2.1 (step d op (m, s)).2.2 (l ++ (m.calls f op).map (·.response))
    rw [runCalls, trace, List.flatMap_cons, List.map_append, ← List.append_assoc]
    simp only [run, hstep]
    exact hrest

theorem map_operation_trace (d : Derivation σ) (ops : List Operation) (x : KeyManager × σ) :
    (trace d ops x).map (·.2.1) = ops := by
  induction ops generalizing x with
  | nil => rfl
  | cons op ops ih => exact congrArg (op :: ·) (ih (step d op x).2)

theorem fits_of_mem_runCalls {ops : List Operation} (hops : ∀ op ∈ ops, op.GivesWholeSecret)
    {x : KeyManager × σ} (hc : c ∈ runCalls d f ops x) : c.purpose.Fits c.response.query := by
  obtain ⟨p, hp, hcall⟩ := List.mem_flatMap.mp hc
  have hop : p.2.1 ∈ ops := by
    rw [← map_operation_trace d ops x]
    exact List.mem_map_of_mem hp
  exact fits_of_mem_calls (hops _ hop) hcall

/-- The calls of a run are all the hashes that it computes, and what is hashed for a purpose becomes what the
purpose says. If every ratchet step is given a whole secret, the bytes that are hashed have the length of
their purpose, and for different purposes they are different. -/
theorem hashed_apart_by_purpose {ops : List Operation} (hops : ∀ op ∈ ops, op.GivesWholeSecret)
    (x : KeyManager × σ) :
    let d : Derivation σ := .shake
    let made := runCalls d Query.shake ops x
    made.map (·.response) = responses d ops x ∧
    (∀ c ∈ made, c.response.answer = (shake256 c.input c.response.answer.length).toList ∧
      c.input.length = c.purpose.inputSize) ∧
    (∀ m op s, ∀ c ∈ calls Query.shake m op,
      c.purpose.Becomes Query.shake op (step d op (m, s)).1 (step d op (m, s)).2.1 c.response.answer) ∧
    ∀ c ∈ made, ∀ c' ∈ made, c.purpose ≠ c'.purpose → c.input ≠ c'.input := by
  intro d made
  have hd : d.Computes Query.shake := Derivation.computes_shake
  have hrecord : made.map (·.response) = responses d ops x := (record_run hd ops x.1 x.2 []).symm
  refine ⟨hrecord, ?_, ?_, ?_⟩
  · intro c hc
    have hmem : c.response ∈ responses d ops x := by
      rw [← hrecord]
      exact List.mem_map_of_mem hc
    have hgives := (genuine_of_mem_responses hmem).2
    exact ⟨hd.agreesWith.answer_eq hgives, (fits_of_mem_runCalls hops hc).length_input⟩
  · intro m op s c hc
    exact becomes_of_mem_calls hd hc s
  · intro c hc c' hc' hne
    exact (fits_of_mem_runCalls hops hc).input_ne (fits_of_mem_runCalls hops hc') hne

/-- Two ratchet steps and a draw. -/
theorem hashed_apart_by_purpose_ratchets :
    let secret : Bytes := List.replicate 64 7
    let ops : List Operation := [.newRatchet secret, .newRatchet secret, .nextMessageKeys .b]
    let made := runCalls (.shake : Derivation Unit) Query.shake ops (new, ())
    (∀ op ∈ ops, op.GivesWholeSecret) ∧
      made.map (·.purpose) = [.derived .rootKey, .derived .chainKeyA, .derived .chainKeyB, .mixed,
        .derived .rootKey, .derived .chainKeyA, .derived .chainKeyB, .derived .messageKey, .derived .macKey,
        .derived .nextChainKey] ∧
      ∀ c ∈ made, ∀ c' ∈ made, c.purpose ≠ c'.purpose → c.input ≠ c'.input := by
  intro secret ops made
  have hops : ∀ op ∈ ops, op.GivesWholeSecret := by
    simp only [ops, List.forall_mem_cons]
    exact ⟨rfl, rfl, trivial, List.forall_mem_nil _⟩
  exact ⟨hops, rfl, (hashed_apart_by_purpose hops (new, ())).2.2.2⟩

end KeyManager

end DeniableHandshake
