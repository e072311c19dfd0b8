import DeniableHandshake.Proofs.Message.RoundTrip

/-!
# Inputs that are cut short or go on

A message that was read is followed by trailing bytes if its input goes on, and a refusal that did
not ask for more bytes stands. The one exception is a sealed reply without a payload: its tag can
turn out to be the front of a payload.
-/
namespace DeniableHandshake

theorem Prolongs.weaken {α : Type} {D : Bytes → Except WireError α} {Open Open' : α → Prop}
    (h : Prolongs D Open) (himp : ∀ a, Open a → Open' a) : Prolongs D Open' where
  accepted hb hopen := h.accepted hb (mt (himp _) hopen)
  refused := h.refused

/-- A sealed reply without a payload. -/
def Body.IsOpen {k : Kind} (b : Body k) : Prop := ∃ s ∈ b.sealed?, s.payload = none

namespace Field

theorem isTruncation_of_whole_block {name : String} {n : Nat} {b : Bytes} {e : WireError}
    (hb : b.length ≤ n) (h : (block name n).read.whole b = .error e) : e.isTruncation = true := by
  by_cases hn : n ≤ b.length
  · have hlen : b.length = n := Nat.le_antisymm hb hn
    rw [(block name n).selfDelimiting.whole_eq_ok_iff.mpr
      (reads_block.mpr (show b = (⟨b, hlen⟩ : Block n).toList from rfl))] at h
    cases h
  · have hread : (block name n).read b = .error (.truncated name n b.length) :=
      take_of_lt (Nat.not_le.mp hn)
    rw [Reader.whole_of_error hread] at h
    cases h
    rfl

theorem prolongs_sealing : Prolongs sealing.read.whole fun p => p.1 = none where
  accepted := by
    intro b p hb hopen x hx
    by_cases hlen : authTagSize < b.length
    · have hlen' : authTagSize < (b ++ x).length := by
        rw [List.length_append]
        omega
      rw [whole_sealing_long hlen, map_eq_ok_iff] at hb
      obtain ⟨q, hq, -⟩ := hb
      rw [whole_sealing_long hlen', map_eq_error_iff]
      exact (selfDelimiting _).prolongs.accepted hq not_false x hx
    · rw [whole_sealing_short hlen, map_eq_ok_iff] at hb
      obtain ⟨t, -, rfl⟩ := hb
      exact absurd rfl hopen
  refused := by
    intro b e hb hne x
    by_cases hlen : authTagSize < b.length
    · have hlen' : authTagSize < (b ++ x).length := by
        rw [List.length_append]
        omega
      rw [whole_sealing_long hlen, map_eq_error_iff] at hb
      rw [whole_sealing_long hlen', map_eq_error_iff]
      exact (selfDelimiting _).prolongs.refused hb hne x
    · rw [whole_sealing_short hlen, map_eq_error_iff] at hb
      rw [isTruncation_of_whole_block (by omega) hb] at hne
      cases hne

theorem prolongs_body (k : Kind) : Prolongs (body k).read.whole Body.IsOpen := by
  cases k with
  | identity => exact offer.selfDelimiting.prolongs.weaken nofun
  | authR => exact reply.selfDelimiting.prolongs.weaken nofun
  | authI => exact ringProof.selfDelimiting.prolongs.weaken nofun
  | prekey => exact offer.selfDelimiting.prolongs.weaken nofun
  | nonInteractiveAuth =>
    refine Prolongs.iso _ ((prolongs_sealing.pair reply).weaken fun p hp => ?_)
    exact ⟨_, rfl, hp⟩

end Field

theorem Envelope.prolongs (k : Kind) : Prolongs (ofBytes k) fun e => e.body.IsOpen :=
  Prolongs.iso _ ((Field.prolongs_body k).pair (Field.tags k))

namespace Message

def IsOpen (m : Message) : Prop := m.envelope.body.IsOpen

/-- The reader of one kind, or the one that follows the header. -/
def read : Option Kind → Bytes → Except WireError Message
  | some k, b => Message.mk k <$> Envelope.ofBytes k b
  | none, b => ofBytes b

theorem prolongs_ofBytes : Prolongs ofBytes IsOpen where
  accepted := by
    intro b m hb hopen x hx
    rw [ofBytes_eq_ok_iff_envelope] at hb
    have hheader := Envelope.read_header_of_ofBytes hb
    rw [ofBytes_of_kind (Field.header.selfDelimiting.append hheader x)
      (Header.kind?_eq_some_iff.mpr rfl), map_eq_error_iff]
    exact (Envelope.prolongs m.kind).accepted hb hopen x hx
  refused := by
    intro b e hb hne x
    have hdelim := Field.header.selfDelimiting
    cases hheader : Field.header.read b with
    | error e' =>
      rw [ofBytes_of_error hheader] at hb
      cases hb
      rw [ofBytes_of_error (hdelim.refuses hheader hne x),
        WireError.prolong_of_ne (hdelim.error_ne_trailing hheader)]
    | ok p =>
      have hheader' := hdelim.append hheader x
      cases hk : p.1.kind? with
      | none =>
        rw [ofBytes_of_unknown hheader hk] at hb
        cases hb
        exact ofBytes_of_unknown hheader' hk
      | some k =>
        rw [ofBytes_of_kind hheader hk, map_eq_error_iff] at hb
        rw [ofBytes_of_kind hheader' hk, map_eq_error_iff]
        exact (Envelope.prolongs k).refused hb hne x

theorem prolongs_read (D : Option Kind) : Prolongs (read D) IsOpen := by
  cases D with
  | none => exact prolongs_ofBytes
  | some k => exact (Envelope.prolongs k).map (Message.mk k)

theorem read_eq_ok_iff {D : Option Kind} {b : Bytes} {m : Message} :
    read D b = .ok m ↔ (∀ k ∈ D, m.kind = k) ∧ ofBytes b = .ok m := by
  cases D with
  | none => exact ⟨fun h => ⟨nofun, h⟩, fun h => h.2⟩
  | some k =>
    constructor
    · intro h
      obtain ⟨v, hv, rfl⟩ := map_eq_ok_iff.mp h
      exact ⟨fun _ hk => Option.some.inj hk, ofBytes_eq_ok_iff_envelope.mpr hv⟩
    · rintro ⟨hk, h⟩
      cases hk k rfl
      exact map_eq_ok_iff.mpr ⟨m.envelope, ofBytes_eq_ok_iff_envelope.mp h, rfl⟩

/-! ## The open case -/

def sealed? (m : Message) : Option SealedReply := m.envelope.body.sealed?

def payload? (m : Message) : Option Payload := m.envelope.body.payload?

def ofSealed (sender receiver : UInt32) (s : SealedReply) : Message :=
  ⟨.nonInteractiveAuth, ⟨sender, receiver, s⟩⟩

theorem eq_ofSealed_of_sealed? {m : Message} {s : SealedReply} (h : m.sealed? = some s) :
    m = ofSealed m.sender m.receiver s := by
  obtain ⟨kind, sender, receiver, body⟩ := m
  cases kind with
  | nonInteractiveAuth =>
    cases h
    rfl
  | _ => cases h

theorem payload?_eq_some_iff {m : Message} {q : Payload} :
    m.payload? = some q ↔ ∃ s, m.sealed? = some s ∧ s.payload = some q :=
  Option.bind_eq_some_iff

section Sealed

variable {u v : UInt32} {s : SealedReply} {b x : Bytes}

theorem ofBytes_eq_ok_sealed_iff : ofBytes b = .ok (ofSealed u v s) ↔
    ∃ r, b = (Header.ofKind .nonInteractiveAuth u v).toBytes ++
        (r ++ (Payload.optionalLayout s.payload ++ s.authTag.toList)) ∧
      Field.reply.read.Reads r s.reply ∧ ∀ q ∈ s.payload, q.ciphertext.length < 2 ^ 32 := by
  rw [ofBytes_eq_ok_iff_envelope, ofSealed, Envelope.ofBytes_eq_ok_iff]
  simp only [Field.reads_reply]
  constructor
  · rintro ⟨pad, hfits, rfl⟩
    obtain ⟨ho, hp⟩ := Body.fits_nonInteractiveAuth.mp hfits
    exact ⟨s.reply.layout pad, rfl, ⟨pad, ho, rfl⟩, hp⟩
  · rintro ⟨_, rfl, ⟨pad, ho, rfl⟩, hp⟩
    exact ⟨pad, Body.fits_nonInteractiveAuth.mpr ⟨ho, hp⟩, rfl⟩

/-- The kind and the tags of what is read stay the same when the input goes on. -/
theorem eq_ofSealed_of_append {m : Message} (hb : ofBytes b = .ok (ofSealed u v s))
    (hm : ofBytes (b ++ x) = .ok m) : ∃ s', m = ofSealed u v s' := by
  have hfirst := Envelope.read_header_of_ofBytes (ofBytes_eq_ok_iff_envelope.mp hb)
  have hlater := Envelope.read_header_of_ofBytes (ofBytes_eq_ok_iff_envelope.mp hm)
  have hsame := (Field.header.selfDelimiting.append hfirst x).symm.trans hlater
  have hheader := congrArg Prod.fst (Except.ok.inj hsame)
  obtain ⟨kind, sender, receiver, body⟩ := m
  have hkind : Kind.nonInteractiveAuth = kind :=
    Kind.toByte_inj.mp (congrArg Header.kindByte hheader)
  have hsender : u = sender := congrArg Header.sender hheader
  have hreceiver : v = receiver := congrArg Header.receiver hheader
  subst hkind hsender hreceiver
  exact ⟨body, rfl⟩

/-- A tag without a payload was the front of a payload if its input goes on and is read. -/
theorem tag_append_eq (hb : ofBytes b = .ok (ofSealed u v s)) (hs : s.payload = none)
    {s' : SealedReply} (hm : ofBytes (b ++ x) = .ok (ofSealed u v s')) :
    s'.reply = s.reply ∧
      s.authTag.toList ++ x = Payload.optionalLayout s'.payload ++ s'.authTag.toList := by
  obtain ⟨r, rfl, hr, -⟩ := ofBytes_eq_ok_sealed_iff.mp hb
  obtain ⟨r', he, hr', -⟩ := ofBytes_eq_ok_sealed_iff.mp hm
  rw [hs, Payload.optionalLayout, List.nil_append, List.append_assoc, List.append_assoc] at he
  obtain ⟨hreply, -, htag⟩ := hr.split_unique hr' (List.append_cancel_left he)
  exact ⟨hreply.symm, htag⟩

/-- Without its last `28 + n` bytes a sealed reply with a ciphertext of `n` bytes is read as one
without a payload. -/
theorem exists_open_of_cut {q : Payload} (hs : s.payload = some q)
    (hm : ofBytes (b ++ x) = .ok (ofSealed u v s)) (hx : x.length = 28 + q.ciphertext.length) :
    ∃ t, ofBytes b = .ok (ofSealed u v ⟨s.reply, none, t⟩) := by
  obtain ⟨r, he, hr, -⟩ := ofBytes_eq_ok_sealed_iff.mp hm
  have hlen : (q.layout ++ s.authTag.toList).length = authTagSize + x.length := by
    rw [List.length_append, q.length_layout, s.authTag.length_toList, hx, Nat.add_comm]
  have htake : ((q.layout ++ s.authTag.toList).take authTagSize).length = authTagSize := by
    rw [List.length_take]
    omega
  have hdrop : ((q.layout ++ s.authTag.toList).drop authTagSize).length = x.length := by
    rw [List.length_drop]
    omega
  refine ⟨⟨_, htake⟩, ofBytes_eq_ok_sealed_iff.mpr ⟨r, ?_, hr, nofun⟩⟩
  rw [hs, Payload.optionalLayout, ← List.take_append_drop authTagSize (q.layout ++ _),
    ← List.append_assoc r, ← List.append_assoc] at he
  exact (List.append_inj' he hdrop.symm).1

end Sealed

section Append

variable {D : Option Kind} {b x : Bytes} {m m' : Message}

/-- A sealed reply without a payload goes on only as the same reply with a payload. -/
theorem read_append_of_isOpen (hx : x ≠ []) (hb : read D b = .ok m) (hopen : m.IsOpen)
    (hm : read D (b ++ x) = .ok m') : ∃ s s' q, m.sealed? = some s ∧ m'.sealed? = some s' ∧
      m'.sender = m.sender ∧ m'.receiver = m.receiver ∧ s'.reply = s.reply ∧
      s'.payload = some q ∧ x.length = 28 + q.ciphertext.length ∧
      s.authTag.toList = (q.layout ++ s'.authTag.toList).take authTagSize := by
  obtain ⟨s, hs, hnone⟩ : ∃ s, m.sealed? = some s ∧ s.payload = none := hopen
  have hb' := (read_eq_ok_iff.mp hb).2
  have hm' := (read_eq_ok_iff.mp hm).2
  rw [eq_ofSealed_of_sealed? hs] at hb' ⊢
  obtain ⟨s', rfl⟩ := eq_ofSealed_of_append hb' hm'
  obtain ⟨hreply, htag⟩ := tag_append_eq hb' hnone hm'
  have hlen := congrArg List.length htag
  simp only [List.length_append, Block.length_toList] at hlen
  cases hq : s'.payload with
  | none =>
    rw [hq] at hlen
    have hzero : x.length = 0 := by
      simp only [Payload.optionalLayout, List.length_nil] at hlen
      omega
    exact absurd (List.length_eq_zero_iff.mp hzero) hx
  | some q =>
    rw [hq] at htag hlen
    simp only [Payload.optionalLayout, q.length_layout] at htag hlen
    refine ⟨s, s', q, rfl, rfl, rfl, rfl, hreply, hq, by omega, ?_⟩
    rw [← htag, List.take_left' s.authTag.length_toList]

theorem exists_open_of_read_append (hm : read D (b ++ x) = .ok m')
    (hq : ∃ q ∈ m'.payload?, x.length = 28 + q.ciphertext.length) :
    ∃ m, read D b = .ok m ∧ m.IsOpen := by
  obtain ⟨q, hq, hlen⟩ := hq
  obtain ⟨s, hs, hpayload⟩ := payload?_eq_some_iff.mp hq
  obtain ⟨hkind, hread⟩ := read_eq_ok_iff.mp hm
  rw [eq_ofSealed_of_sealed? hs] at hkind hread
  obtain ⟨t, ht⟩ := exists_open_of_cut hpayload hread hlen
  refine ⟨ofSealed m'.sender m'.receiver ⟨s.reply, none, t⟩, ?_, _, rfl, rfl⟩
  exact read_eq_ok_iff.mpr ⟨hkind, ht⟩

/-- Every other proper front of what is read asks for more bytes. -/
theorem isTruncation_of_read_append (hx : x ≠ []) (hm : read D (b ++ x) = .ok m')
    (hq : ¬ ∃ q ∈ m'.payload?, x.length = 28 + q.ciphertext.length) :
    ∃ e, read D b = .error e ∧ e.isTruncation = true := by
  cases hb : read D b with
  | ok m =>
    by_cases hopen : m.IsOpen
    · obtain ⟨s, s', q, hs, hs', -, -, -, hpayload, hlen, -⟩ :=
        read_append_of_isOpen hx hb hopen hm
      exact absurd ⟨q, payload?_eq_some_iff.mpr ⟨s', hs', hpayload⟩, hlen⟩ hq
    · have htrailing := (prolongs_read D).accepted hb hopen x hx
      cases htrailing.symm.trans hm
  | error e =>
    refine ⟨e, rfl, ?_⟩
    cases hne : e.isTruncation with
    | true => rfl
    | false =>
      have hrefused := (prolongs_read D).refused hb hne x
      cases hrefused.symm.trans hm

end Append

/-- What becomes of every answer when the input goes on, for the reader of each kind and for the
one that follows the header. -/
theorem read_append (D : Option Kind) (b x : Bytes) (hx : x ≠ []) :
    (∀ e, read D b = .error e → e.isTruncation = false →
      read D (b ++ x) = .error (e.prolong x.length)) ∧
    (∀ m, read D b = .ok m → ¬ m.IsOpen →
      read D (b ++ x) = .error (.trailingBytes x.length)) ∧
    (∀ m m', read D b = .ok m → m.IsOpen → read D (b ++ x) = .ok m' →
      ∃ s s' q, m.sealed? = some s ∧ m'.sealed? = some s' ∧ m'.sender = m.sender ∧
        m'.receiver = m.receiver ∧ s'.reply = s.reply ∧ s'.payload = some q ∧
        x.length = 28 + q.ciphertext.length ∧
        s.authTag.toList = (toBigEndian 4 q.ciphertext.length ++ q.ciphertext ++ q.nonce.toList ++
          s'.authTag.toList).take authTagSize) ∧
    ∀ m', read D (b ++ x) = .ok m' →
      ((∃ q ∈ m'.payload?, x.length = 28 + q.ciphertext.length) →
        ∃ m, read D b = .ok m ∧ m.IsOpen) ∧
      ((¬ ∃ q ∈ m'.payload?, x.length = 28 + q.ciphertext.length) →
        ∃ e, read D b = .error e ∧ e.isTruncation = true) := by
  have hlaw := prolongs_read D
  refine ⟨fun e he hne => hlaw.refused he hne x, fun m hb hm => hlaw.accepted hb hm x hx,
    fun m m' hb hopen hm => read_append_of_isOpen hx hb hopen hm, fun m' hm => ⟨?_, ?_⟩⟩
  · exact exists_open_of_read_append hm
  · exact isTruncation_of_read_append hx hm

/-- The exception occurs: a sealed reply with an empty ciphertext, without its last 28 bytes. -/
theorem read_append_sealedSample : ∃ b x, x ≠ [] ∧ read none (b ++ x) = .ok sealedSample ∧
    ∃ m, read none b = .ok m ∧ m.IsOpen := by
  let e := sealedSample.envelope.layout 0
  have hread : read none e = .ok sealedSample :=
    ofBytes_eq_ok_iff.mpr ⟨0, encodable_sealedSample, rfl⟩
  have hlen : 28 ≤ e.length := by decide +kernel
  have hx : (e.drop (e.length - 28)).length = 28 := by
    rw [List.length_drop]
    omega
  have hne : e.drop (e.length - 28) ≠ [] := List.ne_nil_of_length_pos (by omega)
  rw [← List.take_append_drop (e.length - 28) e] at hread
  have hcut := (read_append none _ _ hne).2.2.2 sealedSample hread
  exact ⟨_, _, hne, hread, hcut.1 ⟨⟨[], .bigEndian 24 5⟩, rfl, hx⟩⟩

end Message

end DeniableHandshake
