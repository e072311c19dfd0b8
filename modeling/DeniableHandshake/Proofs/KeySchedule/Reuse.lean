import DeniableHandshake.Proofs.KeySchedule.Accounts

/-!
# No key is used twice on a ratchet step

Between a ratchet step and the next one, or the clearing of the manager, the draws on each chain are
numbered from zero without a gap. Two draws with different places that share an encryption key, a MAC
key or the chain key they are made from, or a root key that is also a chain key of the step, show two
tagged queries of the step that collide.
-/
namespace DeniableHandshake

/-- Message keys that were handed out, with the chain key that they were made from. -/
structure Draw where
  chain : Chain
  source : Block chainKeySize
  keys : MessageKeys
  deriving DecidableEq

/-- A ratchet step and a clearing end a ratchet step, if they succeed. -/
def Operation.keepsStep : Operation → Bool
  | .newRatchet _ => false
  | .destroy => false
  | _ => true

namespace KeyManager

variable {σ : Type}

/-- The operations of a run in order, each with the manager before it and its outcome. -/
def trace (d : Derivation σ) : List Operation → KeyManager × σ →
    List (KeyManager × Operation × Outcome)
  | [], _ => []
  | op :: ops, s => (s.1, op, (step d op s).1) :: trace d ops (step d op s).2

/-- The managers before and after the operations of a run. -/
def managers (d : Derivation σ) (ops : List Operation) (s : KeyManager × σ) : List KeyManager :=
  (trace d ops s).map (·.1) ++ [(run d ops s).2.1]

def draw? : KeyManager × Operation × Outcome → Option Draw
  | (m, .nextMessageKeys c, .ok (.messageKeys k)) => some ⟨c, (m.current.chain c).key, k⟩
  | _ => none

/-- The draws of a run that succeed. -/
def draws (d : Derivation σ) (ops : List Operation) (s : KeyManager × σ) : List Draw :=
  (trace d ops s).filterMap draw?

/-- No operation of a run ends the ratchet step. -/
def StaysOnStep (d : Derivation σ) (ops : List Operation) (s : KeyManager × σ) : Prop :=
  ∀ p ∈ trace d ops s, p.2.2.isOk = true → p.2.1.keepsStep = true

variable {d : Derivation σ} {f : Query → (n : Nat) → Block n} {m : KeyManager} {s : σ}
  {l l' : List Response} {input : Bytes} {places places' : Chain → Nat}

theorem trace_recorded (d : Derivation σ) (ops : List Operation) (m : KeyManager) (s : σ)
    (l : List Response) : trace d.recorded ops (m, s, l) = trace d ops (m, s) := by
  induction ops generalizing m s l with
  | nil => rfl
  | cons op ops ih =>
    obtain ⟨new, hnew, -⟩ := step_recorded d op m s l
    rw [trace, trace, hnew]
    exact congrArg _ (ih _ _ _)

open RatchetStep

/-! ### Draws by their places -/

/-- The draws take the chains from one place to another, and their keys are those of the places. -/
structure DrawnBetween (f : Query → (n : Nat) → Block n) (input : Bytes)
    (places places' : Chain → Nat) (draws : List Draw) : Prop where
  le : ∀ c, places c ≤ places' c
  numbers : ∀ c, (draws.filter (·.chain = c)).map (·.keys.messageId.toNat) =
    List.range' (places c) (places' c - places c)
  source : ∀ p ∈ draws, p.source = keyAt f input p.chain p.keys.messageId.toNat
  keys : ∀ p ∈ draws, p.keys = (ChainKey.mk p.source p.keys.messageId).messageKeys f

namespace DrawnBetween

theorem nil : DrawnBetween f input places places [] := by
  refine ⟨fun c => Nat.le_refl _, fun c => ?_, nofun, nofun⟩
  rw [Nat.sub_self]
  rfl

theorem cons {p : Draw} {rest : List Draw} (hnumber : p.keys.messageId.toNat = places p.chain)
    (hsource : p.source = keyAt f input p.chain (places p.chain))
    (hkeys : p.keys = (ChainKey.mk p.source p.keys.messageId).messageKeys f)
    (h : DrawnBetween f input (moved places p.chain) places' rest) :
    DrawnBetween f input places places' (p :: rest) := by
  have hmoved := h.le p.chain
  rw [moved_self] at hmoved
  refine ⟨?_, ?_, ?_, ?_⟩
  · intro c
    by_cases hc : c = p.chain
    · subst hc
      omega
    · have hle := h.le c
      rwa [moved_of_ne hc] at hle
  · intro c
    have hnumbers := h.numbers c
    by_cases hc : p.chain = c
    · subst hc
      rw [moved_self] at hnumbers
      have hcount : places' p.chain - places p.chain =
          places' p.chain - (places p.chain + 1) + 1 := by omega
      rw [List.filter_cons_of_pos (by simp), List.map_cons, hnumbers, hnumber, hcount,
        List.range'_succ]
    · rw [moved_of_ne (Ne.symm hc)] at hnumbers
      rw [List.filter_cons_of_neg (by simpa using hc), hnumbers]
  · intro q hq
    obtain rfl | hq := List.mem_cons.mp hq
    · rw [hsource, hnumber]
    · exact h.source q hq
  · intro q hq
    obtain rfl | hq := List.mem_cons.mp hq
    · exact hkeys
    · exact h.keys q hq

theorem number_lt {all : List Draw} (h : DrawnBetween f input places places' all) {p : Draw}
    (hp : p ∈ all) : p.keys.messageId.toNat < places' p.chain := by
  have hmem : p.keys.messageId.toNat ∈
      (all.filter (·.chain = p.chain)).map (·.keys.messageId.toNat) :=
    List.mem_map.mpr ⟨p, List.mem_filter.mpr ⟨hp, by simp⟩, rfl⟩
  rw [h.numbers, List.mem_range'_1] at hmem
  have hle := h.le p.chain
  omega

end DrawnBetween

/-! ### Runs on a ratchet step -/

theorem draws_cons (op : Operation) (ops : List Operation) (x : KeyManager × σ) :
    draws d (op :: ops) x =
      (draw? (x.1, op, (step d op x).1)).toList ++ draws d ops (step d op x).2 := by
  rw [draws, trace, List.filterMap_cons]
  cases draw? (x.1, op, (step d op x).1) with
  | none => rfl
  | some p => rfl

theorem managers_cons (op : Operation) (ops : List Operation) (x : KeyManager × σ) :
    managers d (op :: ops) x = x.1 :: managers d ops (step d op x).2 := rfl

theorem draw?_of_error (m : KeyManager) (op : Operation) (e : KeyError) :
    draw? (m, op, .error e) = none := by
  cases op with
  | _ => rfl

/-- An operation that stays on the step draws at most once, at the place where the chain is. -/
theorem step_holds (hd : d.AgreesWith f) (h : Holds f input places m.current l) {op : Operation}
    (hstays : (step d.recorded op (m, s, l)).1.isOk = true → op.keepsStep = true) : ∃ next,
    Holds f input next (step d.recorded op (m, s, l)).2.1.current
      (step d.recorded op (m, s, l)).2.2.2 ∧
    ∀ places' rest, DrawnBetween f input next places' rest → DrawnBetween f input places places'
      ((draw? (m, op, (step d.recorded op (m, s, l)).1)).toList ++ rest) := by
  have hgrow := record_subset_step (d := d) op m s l
  have hkept (hratchet : (step d.recorded op (m, s, l)).2.1.ratchet = m.ratchet) :
      Holds f input places (step d.recorded op (m, s, l)).2.1.current
        (step d.recorded op (m, s, l)).2.2.2 := by
    rw [(Prod.mk.inj hratchet).2]
    exact h.mono hgrow
  cases hs : (step d.recorded op (m, s, l)).1 with
  | error e =>
    have hm : (step d.recorded op (m, s, l)).2.1 = m := step_of_error hs
    rw [draw?_of_error]
    exact ⟨places, hkept (congrArg ratchet hm), fun _ _ hrest => hrest⟩
  | ok a =>
    rw [hs] at hstays
    cases op with
    | generateKeys _ | setTheirKeys _ _ | deriveSharedSecret =>
      exact ⟨places, hkept (ratchet_step_of_isExchange d.recorded rfl (m, s, l)),
        fun _ _ hrest => hrest⟩
    | newRatchet secret => cases hstays rfl
    | nextMessageKeys c =>
      obtain ⟨hroom, rfl, hmanager, hrecord⟩ := step_nextMessageKeys_of_ok hd hs
      rw [hmanager, hrecord]
      refine ⟨moved places c, h.draw hroom (List.subset_append_right _ _)
        (List.subset_append_left _ _), ?_⟩
      intro places' rest hrest
      exact hrest.cons (h.messageId c) (h.key c) rfl
    | destroy => cases hstays rfl

/-- A run on the step draws from place to place, and every manager on the way has the root key of the
step and chain keys at places that the run has reached. -/
theorem run_holds (hd : d.AgreesWith f) (h : Holds f input places m.current l)
    {ops : List Operation} (hstays : StaysOnStep d.recorded ops (m, s, l)) : ∃ places',
    Holds f input places' (run d.recorded ops (m, s, l)).2.1.current
      (run d.recorded ops (m, s, l)).2.2.2 ∧
    DrawnBetween f input places places' (draws d.recorded ops (m, s, l)) ∧
    ∀ m' ∈ managers d.recorded ops (m, s, l), ∀ c, ∃ i ≤ places' c,
      (m'.current.chain c).key = keyAt f input c i := by
  induction ops generalizing m s l places with
  | nil =>
    refine ⟨places, h, .nil, ?_⟩
    intro m' hm' c
    obtain rfl := List.mem_singleton.mp hm'
    exact ⟨places c, Nat.le_refl _, h.key c⟩
  | cons op ops ih =>
    obtain ⟨next, hnext, hdrawn⟩ := step_holds hd h (hstays _ List.mem_cons_self)
    obtain ⟨places', hlast, hrest, hkeys⟩ := ih hnext fun p hp => hstays p (List.mem_cons_of_mem _ hp)
    have hall := hdrawn places' _ hrest
    refine ⟨places', hlast, ?_, ?_⟩
    · rw [draws_cons]
      exact hall
    · intro m' hm' c
      rw [managers_cons] at hm'
      obtain rfl | hlater := List.mem_cons.mp hm'
      · exact ⟨places c, hall.le c, h.key c⟩
      · exact hkeys m' hlater c

/-! ### Keys that are used twice -/

/-- Draws with different places that share a key show responses that collide. -/
theorem collision_of_draws {keys : RatchetKeys} {all : List Draw} (h : Holds f input places' keys l)
    (hall : DrawnBetween f input places places' all) {p q : Draw} (hp : p ∈ all) (hq : q ∈ all)
    (hne : (p.chain, p.keys.messageId) ≠ (q.chain, q.keys.messageId))
    (hshared : p.keys.encryption = q.keys.encryption ∨ p.keys.mac = q.keys.mac ∨
      p.source = q.source) : Collision false l l := by
  have hp' := hall.number_lt hp
  have hq' := hall.number_lt hq
  have hsources (hsource : p.source = q.source) : Collision false l l := by
    rw [hall.source p hp, hall.source q hq] at hsource
    refine (place_eq_or_collision (fun k hk => h.keyResponses _ k (Nat.le_trans hk (Nat.le_of_lt hp')))
      (fun k hk => h.keyResponses _ k (Nat.le_trans hk (Nat.le_of_lt hq'))) hsource).resolve_left ?_
    rintro ⟨-, hchain, hnumber⟩
    exact hne (Prod.ext hchain (UInt32.toNat_inj.mp hnumber))
  have hmessages := h.messageResponses p.chain _ hp'
  have hmessages' := h.messageResponses q.chain _ hq'
  rw [MessageResponses, ← hall.source p hp] at hmessages
  rw [MessageResponses, ← hall.source q hq] at hmessages'
  -- equal message keys answer the same query, which is asked of the chain key, or collide
  have hquery {u : Usage} {n : Nat} (hn : 32 ≤ n) (hu : Response.of f (u.query p.source.toList) n ∈ l)
      (hu' : Response.of f (u.query q.source.toList) n ∈ l)
      (he : f (u.query p.source.toList) n = f (u.query q.source.toList) n) :
      Collision false l l := by
    obtain hsame | hcollision :=
      query_eq_or_collision hn (isKeyed_query u _) (isKeyed_query u _) hu hu' he
    · exact hsources (Block.ext (usage_query_inj.mp hsame).2)
    · exact hcollision
  obtain hencryption | hmac | hsource := hshared
  · rw [hall.keys p hp, hall.keys q hq] at hencryption
    exact hquery (by decide) hmessages.1 hmessages'.1 hencryption
  · rw [hall.keys p hp, hall.keys q hq] at hmac
    exact hquery (by decide) hmessages.2 hmessages'.2 hmac
  · exact hsources hsource

/-! ### The draws of a run as they are -/

theorem draws_recorded (d : Derivation σ) (ops : List Operation) (m : KeyManager) (s : σ)
    (l : List Response) : draws d.recorded ops (m, s, l) = draws d ops (m, s) := by
  rw [draws, draws, trace_recorded]

theorem managers_recorded (d : Derivation σ) (ops : List Operation) (m : KeyManager) (s : σ)
    (l : List Response) : managers d.recorded ops (m, s, l) = managers d ops (m, s) := by
  obtain ⟨new, hnew, -⟩ := run_recorded d ops m s l
  rw [managers, managers, trace_recorded, hnew]

/-- After a ratchet step, with its record, the manager holds the step's keys and both chains are at
their start. -/
theorem holds_of_newRatchet (hd : d.AgreesWith f) {secret : Bytes} {a : Answer}
    (hstep : (step d (.newRatchet secret) (m, s)).1 = .ok a) :
    ∃ l, step d.recorded (.newRatchet secret) (m, s, []) =
        (.ok a, (step d (.newRatchet secret) (m, s)).2.1,
          (step d (.newRatchet secret) (m, s)).2.2, l) ∧
      Holds f (m.ratchetInput f secret) (fun _ => 0)
        (step d (.newRatchet secret) (m, s)).2.1.current l := by
  obtain ⟨l, hl, -⟩ := step_recorded d (.newRatchet secret) m s []
  rw [hstep, List.nil_append] at hl
  have hok := congrArg Prod.fst hl
  obtain ⟨-, hmanager, hrecord⟩ := step_newRatchet_of_ok hd hok
  rw [hl] at hmanager hrecord
  refine ⟨l, hl, ?_⟩
  dsimp only at hmanager hrecord
  rw [hmanager, hrecord]
  exact .start fun r hr => List.mem_append_right [] (List.mem_append_right _ hr)

/-- After a ratchet step and until the next one, or until the manager is cleared, the draws on each
chain are numbered from zero on, and draws with different places that share a key, or a root key that
is a chain key, show tagged queries of the step that collide. If the derivation is the hash, the
collision is one of the hash. -/
theorem draws_numbered_and_fresh_or_responses_collide (hd : d.AgreesWith f) (m : KeyManager) (s : σ)
    (secret : Bytes) (ops : List Operation)
    (hstep : (step d (.newRatchet secret) (m, s)).1 = .ok .done)
    (hstays : StaysOnStep d ops (step d (.newRatchet secret) (m, s)).2) :
    let start := (step d (.newRatchet secret) (m, s)).2
    let drawn := draws d ops start
    let record := responses d (.newRatchet secret :: ops) (m, s)
    (∀ c, (drawn.filter (·.chain = c)).map (·.keys.messageId.toNat) =
      List.range (drawn.filter (·.chain = c)).length) ∧
    (∀ p ∈ drawn, ∀ q ∈ drawn, (p.chain, p.keys.messageId) ≠ (q.chain, q.keys.messageId) →
      (p.keys.encryption = q.keys.encryption ∨ p.keys.mac = q.keys.mac ∨ p.source = q.source) →
      Collision false record record) ∧
    (∀ m' ∈ managers d ops start, ∀ c, start.1.current.root = (m'.current.chain c).key →
      Collision false record record) ∧
    (f = Query.shake → ∀ r ∈ record, ∀ r' ∈ record, r.Collides r' → r.HashesAlike r') := by
  intro start drawn record
  obtain ⟨l, hl, hstart⟩ := holds_of_newRatchet hd hstep
  have hstays' : StaysOnStep d.recorded ops (start.1, start.2, l) := by
    intro p hp
    rw [trace_recorded] at hp
    exact hstays p hp
  obtain ⟨places, hlast, hdrawn, hkeys⟩ := run_holds hd hstart hstays'
  have hrecord : (run d.recorded ops (start.1, start.2, l)).2.2.2 = record := by
    simp only [record, responses, run, hl, start]
  rw [hrecord] at hlast
  rw [draws_recorded] at hdrawn
  refine ⟨?_, ?_, ?_, ?_⟩
  · intro c
    have hnumbers := hdrawn.numbers c
    have hcount := congrArg List.length hnumbers
    rw [List.length_map, List.length_range'] at hcount
    rw [hnumbers, hcount, List.range_eq_range']
  · intro p hp q hq hne hshared
    exact collision_of_draws hlast hdrawn hp hq hne hshared
  · intro m' hm' c hroot
    rw [← managers_recorded d ops start.1 start.2 l] at hm'
    obtain ⟨i, hi, hkey⟩ := hkeys m' hm' c
    rw [hkey, hstart.root] at hroot
    exact collision_of_root_eq hlast.rootResponse (hlast.keyResponses c i hi) hroot
  · rintro rfl r hr r' hr' hcollides
    exact hcollides.hashesAlike hd (genuine_of_mem_responses hr) (genuine_of_mem_responses hr')

/-- Under the derivation that always answers zero, the first keys of both chains are the same. -/
theorem draws_numbered_and_fresh_or_responses_collide_zero :
    let d : Derivation Unit := .ofFunction Query.zero
    let ops : List Operation := [.nextMessageKeys .a, .nextMessageKeys .b, .nextMessageKeys .a]
    d.AgreesWith Query.zero ∧ (step d (.newRatchet [1]) (new, ())).1 = .ok .done ∧
      StaysOnStep d ops (step d (.newRatchet [1]) (new, ())).2 ∧
      Collision false (responses d (.newRatchet [1] :: ops) (new, ()))
        (responses d (.newRatchet [1] :: ops) (new, ())) := by
  intro d ops
  have hd : d.AgreesWith Query.zero := (Derivation.computes_ofFunction Query.zero).agreesWith
  have hstep : (step d (.newRatchet [1]) (new, ())).1 = .ok .done := by decide +kernel
  have hstays : StaysOnStep d ops (step d (.newRatchet [1]) (new, ())).2 := by
    intro p hp
    have hkeeps : ∀ p ∈ trace d ops (step d (.newRatchet [1]) (new, ())).2,
        p.2.1.keepsStep = true := by decide +kernel
    exact fun _ => hkeeps p hp
  have hfresh := (draws_numbered_and_fresh_or_responses_collide hd new () [1] ops hstep hstays).2.1
  have hshared : ∃ p ∈ draws d ops (step d (.newRatchet [1]) (new, ())).2,
      ∃ q ∈ draws d ops (step d (.newRatchet [1]) (new, ())).2,
      (p.chain, p.keys.messageId) ≠ (q.chain, q.keys.messageId) ∧
        p.keys.encryption = q.keys.encryption := by decide +kernel
  obtain ⟨p, hp, q, hq, hne, hsame⟩ := hshared
  exact ⟨hd, hstep, hstays, hfresh p hp q hq hne (.inl hsame)⟩

end KeyManager

end DeniableHandshake
