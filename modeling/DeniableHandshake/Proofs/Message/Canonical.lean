import DeniableHandshake.Proofs.Message.RoundTrip

/-!
# Other forms of a message

A message can be read from more byte strings than the one that it is written as, and all of them
differ from that one in the group value only: zero bytes stand in front of its magnitude and are
counted by the length in front of them.
-/
namespace DeniableHandshake

namespace Body

variable {k : Kind} {b : Body k}

theorem layout_of_offer {o : Offer} (ho : b.offer? = some o) :
    ∃ back, ∀ pad, b.layout pad = o.layout pad ++ back := by
  cases k with
  | identity =>
    cases ho
    exact ⟨[], fun pad => (List.append_nil _).symm⟩
  | authR =>
    cases ho
    exact ⟨_, fun pad => rfl⟩
  | authI => cases ho
  | prekey =>
    cases ho
    exact ⟨[], fun pad => (List.append_nil _).symm⟩
  | nonInteractiveAuth =>
    cases ho
    exact ⟨_, fun pad => List.append_assoc _ _ _⟩

theorem Fits.mono {pad pad' : Nat} (h : b.Fits pad) (hle : pad' ≤ pad) : b.Fits pad' where
  offer o ho := ⟨(h.offer o ho).profile, by have := (h.offer o ho).magnitude; omega⟩
  no_offer ho := by have := h.no_offer ho; omega
  payload := h.payload

end Body

namespace Message

/-- The number of bytes in front of the group value of an offer. -/
def valueStart (o : Offer) : Nat := Header.size + o.profile.size + Curve448.pointSize

/-- The magnitude of a group value after its length. -/
def valueBytes (k : Nat) (v : Modp3072.Value) : Bytes :=
  toBigEndian 4 (v.magnitude.length + k) ++ (List.replicate k 0 ++ v.magnitude)

/-- `b` is `e` with `k` zero bytes put in front of the magnitude and the length in front of it
raised by `k`. Without an offer there is no magnitude. -/
def IsPadding (m : Message) (k : Nat) (e b : Bytes) : Prop :=
  match m.offer? with
  | none => k = 0 ∧ b = e
  | some o => ∃ front back, front.length = valueStart o ∧
      e = front ++ (valueBytes 0 o.value ++ back) ∧ b = front ++ (valueBytes k o.value ++ back)

/-- The magnitude that stands in the bytes of a message, leading zeros included. -/
def receivedMagnitude (m : Message) (b : Bytes) : Bytes :=
  match m.offer? with
  | none => []
  | some o => ((b.drop (valueStart o)).drop 4).take (ofBigEndian ((b.drop (valueStart o)).take 4))

variable {m : Message} {k : Nat} {e b : Bytes}

theorem exists_layout_eq {o : Offer} (ho : m.offer? = some o) :
    ∃ front back, front.length = valueStart o ∧
      ∀ pad, m.envelope.layout pad = front ++ (valueBytes pad o.value ++ back) := by
  obtain ⟨back, hback⟩ := Body.layout_of_offer ho
  refine ⟨(Header.ofKind m.kind m.envelope.sender m.envelope.receiver).toBytes ++
    (o.profile.layout ++ o.point.encoding.toList), back, ?_, fun pad => ?_⟩
  · rw [List.length_append, List.length_append, Header.length_toBytes, Profile.length_layout,
      o.point.encoding.length_toList, valueStart, Nat.add_assoc]
  · rw [Envelope.layout, hback, Offer.layout, lengthPrefixed, valueBytes, List.length_append,
      List.length_replicate, Nat.add_comm pad, Field.lengthSize]
    simp only [List.append_assoc]

theorem isPadding_layout (hk : m.offer? = none → k = 0) :
    m.IsPadding k (m.envelope.layout 0) (m.envelope.layout k) := by
  cases ho : m.offer? with
  | none =>
    rw [IsPadding, ho]
    refine ⟨hk ho, ?_⟩
    rw [hk ho]
  | some o =>
    rw [IsPadding, ho]
    obtain ⟨front, back, hlen, hlayout⟩ := exists_layout_eq ho
    exact ⟨front, back, hlen, hlayout 0, hlayout k⟩

theorem IsPadding.eq_layout (h : m.IsPadding k (m.envelope.layout 0) b) :
    (m.offer? = none → k = 0) ∧ b = m.envelope.layout k := by
  cases ho : m.offer? with
  | none =>
    rw [IsPadding, ho] at h
    obtain ⟨rfl, rfl⟩ := h
    exact ⟨fun _ => rfl, rfl⟩
  | some o =>
    rw [IsPadding, ho] at h
    obtain ⟨front, back, hlen, he, rfl⟩ := h
    obtain ⟨front', back', hlen', hlayout⟩ := exists_layout_eq ho
    refine ⟨nofun, ?_⟩
    rw [hlayout] at he ⊢
    obtain ⟨rfl, hrest⟩ := List.append_inj he (hlen'.trans hlen.symm)
    rw [List.append_cancel_left hrest]

theorem IsPadding.length_eq (h : m.IsPadding k e b) : b.length = e.length + k := by
  cases ho : m.offer? with
  | none =>
    rw [IsPadding, ho] at h
    obtain ⟨rfl, rfl⟩ := h
    rfl
  | some o =>
    rw [IsPadding, ho] at h
    obtain ⟨front, back, -, rfl, rfl⟩ := h
    simp only [valueBytes, List.length_append, length_toBigEndian, List.length_replicate]
    omega

theorem IsPadding.eq_iff (h : m.IsPadding k e b) : b = e ↔ k = 0 := by
  have hlen := h.length_eq
  constructor
  · rintro rfl
    omega
  · rintro rfl
    cases ho : m.offer? with
    | none =>
      rw [IsPadding, ho] at h
      exact h.2
    | some o =>
      rw [IsPadding, ho] at h
      obtain ⟨front, back, -, rfl, rfl⟩ := h
      rfl

theorem IsPadding.receivedMagnitude_eq (h : m.IsPadding k e b) {o : Offer} (ho : m.offer? = some o)
    (hk : o.value.magnitude.length + k ≤ Modp3072.width) :
    m.receivedMagnitude b = List.replicate k 0 ++ o.value.magnitude := by
  rw [IsPadding, ho] at h
  obtain ⟨front, back, hlen, -, rfl⟩ := h
  have hlength : ofBigEndian (toBigEndian 4 (o.value.magnitude.length + k)) =
      o.value.magnitude.length + k := by
    rw [ofBigEndian_toBigEndian]
    exact Nat.mod_eq_of_lt (by rw [Modp3072.width] at hk; omega)
  have hpadded : (List.replicate k 0 ++ o.value.magnitude).length =
      o.value.magnitude.length + k := by
    rw [List.length_append, List.length_replicate, Nat.add_comm]
  simp only [receivedMagnitude, ho]
  rw [List.drop_left' hlen, valueBytes, List.append_assoc,
    List.take_left' (length_toBigEndian ..), List.drop_left' (length_toBigEndian ..), hlength,
    List.take_left' hpadded]

theorem IsPadding.eq_iff_head (h : m.IsPadding k e b)
    (hk : ∀ o ∈ m.offer?, o.value.magnitude.length + k ≤ Modp3072.width) :
    b = e ↔ (m.receivedMagnitude b).head? ≠ some 0 := by
  cases ho : m.offer? with
  | none =>
    have hnone := h
    rw [IsPadding, ho] at hnone
    simp [receivedMagnitude, ho, hnone.2]
  | some o =>
    rw [h.eq_iff, h.receivedMagnitude_eq ho (hk o ho)]
    cases k with
    | zero => simpa using o.value.minimal
    | succ k => simp [List.replicate_succ]

theorem offer?_eq_none_iff : m.offer? = none ↔ m.kind = .authI := by
  obtain ⟨kind, envelope⟩ := m
  cases kind with
  | authI => exact ⟨fun _ => rfl, fun _ => rfl⟩
  | _ => exact ⟨nofun, nofun⟩

/-- What is read as `m` is a padding of what `m` is written as. -/
theorem exists_isPadding (hb : ofBytes b = .ok m) : ∃ e k, m.toBytes = .ok e ∧ m.IsPadding k e b ∧
    ∀ o ∈ m.offer?, o.value.magnitude.length + k ≤ Modp3072.width := by
  obtain ⟨pad, hfits, rfl⟩ := ofBytes_eq_ok_iff.mp hb
  refine ⟨m.envelope.layout 0, pad, ?_, isPadding_layout hfits.no_offer, fun o ho => ?_⟩
  · exact toBytes_eq_ok_iff.mpr ⟨hfits.mono (Nat.zero_le pad), rfl⟩
  · exact (hfits.offer o ho).magnitude

theorem ofBytes_of_isPadding (he : m.toBytes = .ok e) (h : m.IsPadding k e b)
    (hk : ∀ o ∈ m.offer?, o.value.magnitude.length + k ≤ Modp3072.width) : ofBytes b = .ok m := by
  obtain ⟨hm, rfl⟩ := toBytes_eq_ok_iff.mp he
  obtain ⟨hnone, rfl⟩ := h.eq_layout
  refine ofBytes_eq_ok_iff.mpr ⟨k, ⟨fun o ho => ?_, hnone, hm.payload⟩, rfl⟩
  exact ⟨(hm.offer o ho).profile, hk o ho⟩

/-- The paddings of what a message is written as, up to the width of the prime, and no other byte
strings are read as the message. -/
theorem ofBytes_eq_ok_paddings (m : Message) :
    (∀ b, ofBytes b = .ok m → ∃ e k, m.toBytes = .ok e ∧ m.IsPadding k e b ∧
      (m.kind = .authI → k = 0) ∧ b.length = e.length + k ∧
        (b = e ↔ (m.receivedMagnitude b).head? ≠ some 0)) ∧
    (∀ e k b, m.toBytes = .ok e → m.IsPadding k e b →
      (∀ o ∈ m.offer?, o.value.magnitude.length + k ≤ Modp3072.width) → ofBytes b = .ok m) ∧
    ∀ b b', ofBytes b = .ok m → ofBytes b' = .ok m → b ≠ b' →
      ∃ e k k', m.toBytes = .ok e ∧ m.IsPadding k e b ∧ m.IsPadding k' e b' ∧ k ≠ k' := by
  refine ⟨fun b hb => ?_, fun e k b he h hk => ofBytes_of_isPadding he h hk,
    fun b b' hb hb' hne => ?_⟩
  · obtain ⟨e, k, he, h, hk⟩ := exists_isPadding hb
    obtain ⟨-, rfl⟩ := toBytes_eq_ok_iff.mp he
    refine ⟨_, k, he, h, fun hkind => ?_, h.length_eq, h.eq_iff_head hk⟩
    exact h.eq_layout.1 (offer?_eq_none_iff.mpr hkind)
  · obtain ⟨e, k, he, h, -⟩ := exists_isPadding hb
    obtain ⟨e', k', he', h', -⟩ := exists_isPadding hb'
    cases he.symm.trans he'
    refine ⟨e, k, k', he, h, h', ?_⟩
    rintro rfl
    obtain ⟨-, rfl⟩ := toBytes_eq_ok_iff.mp he
    exact hne (h.eq_layout.2.trans h'.eq_layout.2.symm)

/-- A second form, with two zero bytes in front of a magnitude of two bytes. -/
theorem ofBytes_eq_ok_paddings_sealedSample : ∃ e b, sealedSample.toBytes = .ok e ∧
    sealedSample.IsPadding 2 e b ∧ ofBytes b = .ok sealedSample ∧ b.length = e.length + 2 := by
  have he : sealedSample.toBytes = .ok (sealedSample.envelope.layout 0) :=
    toBytes_eq_ok_iff.mpr ⟨encodable_sealedSample, rfl⟩
  have hpad : sealedSample.IsPadding 2 (sealedSample.envelope.layout 0)
      (sealedSample.envelope.layout 2) := isPadding_layout nofun
  refine ⟨_, _, he, hpad, (ofBytes_eq_ok_paddings sealedSample).2.1 _ 2 _ he hpad ?_,
    hpad.length_eq⟩
  intro o ho
  cases ho
  decide

end Message

end DeniableHandshake
