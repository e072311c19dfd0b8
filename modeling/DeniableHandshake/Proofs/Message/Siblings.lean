import DeniableHandshake.Proofs.Message.Precedence

/-!
# Kinds with the same body

An identity message and a prekey message differ in the byte of the kind and in nothing else, whether they are
written, read or refused. A sealed reply without a payload is a reply of the interactive kind with an
authentication tag after it.
-/
namespace DeniableHandshake

namespace Header

/-- The same bytes with the byte of kind `k` in its place. -/
def retype (k : Kind) (b : Bytes) : Bytes := b.set 2 k.toByte

variable {k : Kind} {b : Bytes}

theorem length_retype (k : Kind) (b : Bytes) : (retype k b).length = b.length := List.length_set

theorem retype_retype (k k' : Kind) (b : Bytes) : retype k (retype k' b) = retype k b := List.set_set _

theorem take_retype (k : Kind) (b : Bytes) (n : Nat) : (retype k b).take n = retype k (b.take n) :=
  List.take_set

theorem drop_retype (k : Kind) (b : Bytes) {n : Nat} (hn : 2 < n) : (retype k b).drop n = b.drop n := by
  rw [retype, List.drop_set, if_pos hn]

theorem retype_of_getElem? (h : b[2]? = some k.toByte) : retype k b = b := by
  obtain ⟨hlength, hbyte⟩ := List.getElem?_eq_some_iff.mp h
  rw [retype, ← hbyte, List.set_getElem_self]

theorem kindByteOf_of_getElem? (h : b[2]? = some k.toByte) : kindByteOf b = k.toByte := by
  rw [kindByteOf, List.getD_eq_getElem?_getD, h, Option.getD_some]

theorem retype_toBytes_append (k k' : Kind) (u v : UInt32) (rest : Bytes) :
    retype k' ((ofKind k u v).toBytes ++ rest) = (ofKind k' u v).toBytes ++ rest := rfl

theorem getElem?_toBytes_append (k : Kind) (u v : UInt32) (rest : Bytes) :
    ((ofKind k u v).toBytes ++ rest)[2]? = some k.toByte := rfl

/-- The other parts of the header do not see the byte of the kind. -/
theorem ofBlock_retype (a : Block size) (k : Kind) :
    ofBlock ⟨retype k a.toList, (length_retype k _).trans a.length_toList⟩ =
      { ofBlock a with kindByte := k.toByte } := by
  obtain ⟨l, hl⟩ := a
  match l, hl with
  | _ :: _ :: _ :: _, _ => simp [ofBlock, retype, ofBigEndian, ofLittleEndian]

end Header

namespace Field
open Header

variable {α β : Type} {k : Kind} {b b' : Bytes}

/-- Two inputs on which the first field reads the same and which are the same after it. -/
theorem whole_pair_congr {f f' : Field α} (h : f'.read b' = f.read b)
    (hrest : ∀ a n, f.read b = .ok (a, n) → b'.drop n = b.drop n) (g : Field β) :
    (f'.pair g).read.whole b' = (f.pair g).read.whole b := by
  cases hf : f.read b with
  | error e => rw [whole_pair_of_error hf, whole_pair_of_error (h.trans hf)]
  | ok p => rw [whole_pair_of_ok hf, whole_pair_of_ok (h.trans hf), hrest p.1 p.2 hf]

theorem count_tags {t : UInt32 × UInt32} {n : Nat} (h : (tags k).read b = .ok (t, n)) : n = size := by
  obtain ⟨hn, hreads⟩ := (tags k).selfDelimiting.reads h
  have hbytes := writes_tags.mp (Canonical.reads_iff_writes.mp hreads)
  rw [← List.length_take_of_le hn, hbytes, length_toBytes]

theorem kindByte_of_read_header {h : Header} {n : Nat} (hb : header.read b = .ok (h, n)) :
    h.kindByte = kindByteOf b := by
  by_cases hlength : b.length < size
  · cases (read_header_of_short hlength).symm.trans hb
  · obtain ⟨h', -, hkind, hread⟩ := read_header_of_long (Nat.not_lt.mp hlength)
    rw [hread] at hb
    split at hb
    · cases hb
      exact hkind
    · cases hb

theorem read_header_retype (k : Kind) (b : Bytes) : header.read (retype k b) =
    (fun p => ({ p.1 with kindByte := k.toByte }, p.2)) <$> header.read b := by
  have hlength := length_retype k b
  by_cases hb : b.length < size
  · rw [read_header_of_short hb, read_header_of_short (by rwa [hlength]), hlength]
    rfl
  · have hb' : size ≤ b.length := Nat.not_lt.mp hb
    let a : Block size := ⟨b.take size, List.length_take_of_le hb'⟩
    have hblock : (block "header" size).read b = .ok (a, size) := take_of_le hb'
    have hretyped : (block "header" size).read (retype k b) =
        .ok (⟨retype k a.toList, (length_retype k _).trans a.length_toList⟩, size) := by
      have hread : (block "header" size).read (retype k b) = _ := take_of_le (hlength ▸ hb')
      simp only [hread, take_retype, a]
    rw [header_eq, read_refine, Reader.andThen_of_ok hblock, Reader.andThen_of_ok hretyped, acceptHeader,
      acceptHeader, ofBlock_retype]
    split
    · rfl
    · rfl

/-- A header of the one kind and the same header of the other have the same tags. -/
theorem read_tags_retype {k' : Kind} (hk : kindByteOf b = k.toByte) :
    (tags k').read (retype k' b) = (tags k).read b := by
  have hretyped := read_header_retype k' b
  cases hb : header.read b with
  | error e =>
    rw [hb] at hretyped
    rw [read_tags_of_error hb, read_tags_of_error hretyped]
  | ok p =>
    rw [hb] at hretyped
    rw [read_tags_of_ok hb, read_tags_of_ok hretyped, tagsOf_of_eq ((kindByte_of_read_header hb).trans hk),
      tagsOf_of_eq rfl]

end Field

namespace Envelope
open Header

variable {b : Bytes}

/-- A prekey message with the parts of an identity message. -/
def toPrekey (e : Envelope .identity) : Envelope .prekey := ⟨e.sender, e.receiver, e.body⟩

theorem ofBytes_prekey_retype (hb : b[2]? = some Kind.identity.toByte) :
    ofBytes .prekey (retype .prekey b) = toPrekey <$> ofBytes .identity b := by
  have htags : (Field.tags .prekey).read (retype .prekey b) = (Field.tags .identity).read b :=
    Field.read_tags_retype (kindByteOf_of_getElem? hb)
  have hrest (t : UInt32 × UInt32) (n : Nat) (hread : (Field.tags .identity).read b = .ok (t, n)) :
      (retype .prekey b).drop n = b.drop n := by
    rw [Field.count_tags hread]
    exact drop_retype .prekey b (by decide)
  have hwhole : ((Field.tags .prekey).pair (Field.body .prekey)).read.whole (retype .prekey b) =
      ((Field.tags .identity).pair (Field.body .identity)).read.whole b :=
    Field.whole_pair_congr htags hrest Field.offer
  rw [ofBytes_eq, ofBytes_eq, hwhole]
  cases ((Field.tags .identity).pair (Field.body .identity)).read.whole b with
  | error e => rfl
  | ok p => rfl

theorem toBytes_toPrekey (e : Envelope .identity) : e.toPrekey.toBytes = retype .prekey <$> e.toBytes := by
  have hoffer : (∃ b, Field.offer.Writes e.body b) ∨ ∃ error b, Field.offer.Fails e.body error b :=
    Field.Appending.writes_or_fails (f := Field.offer) e.body
  have htags (k : Kind) : (Field.tags k).Writes (e.sender, e.receiver)
      (ofKind k e.sender e.receiver).toBytes := Field.writes_tags.mpr rfl
  rcases hoffer with ⟨b, hb⟩ | ⟨error, b, hb⟩
  · rw [toBytes_of_writes ((htags .identity).pair hb),
      toBytes_of_writes (e := e.toPrekey) ((htags .prekey).pair hb)]
    rfl
  · rw [toBytes_of_fails (hb.pair_right (htags .identity)),
      toBytes_of_fails (e := e.toPrekey) (hb.pair_right (htags .prekey))]
    rfl

theorem getElem?_of_toBytes {k : Kind} {e : Envelope k} (hb : e.toBytes = .ok b) : b[2]? = some k.toByte := by
  obtain ⟨-, rfl⟩ := toBytes_eq_ok_iff.mp hb
  exact getElem?_toBytes_append k e.sender e.receiver _

theorem ofBytes_nonInteractiveAuth_iff (hlength : size + authTagSize ≤ b.length)
    (hb : b[2]? = some Kind.nonInteractiveAuth.toByte) (u v : UInt32) (r : Reply) (t : Block authTagSize) :
    ofBytes .nonInteractiveAuth b = .ok ⟨u, v, (⟨r, none, t⟩ : SealedReply)⟩ ↔
      ofBytes .authR (retype .authR (b.take (b.length - authTagSize))) = .ok ⟨u, v, r⟩ ∧
        b.drop (b.length - authTagSize) = t.toList := by
  have hauthR {pad : Nat} : Body.Fits pad (k := .authR) r ↔ r.offer.Fits pad :=
    Body.fits_iff_of_offer (k := .authR) rfl rfl
  rw [ofBytes_eq_ok_iff, ofBytes_eq_ok_iff]
  constructor
  · rintro ⟨pad, hfits, hlayout⟩
    obtain ⟨hoffer, -⟩ := Body.fits_nonInteractiveAuth.mp hfits
    have hsplit : b = ((ofKind .nonInteractiveAuth u v).toBytes ++ r.layout pad) ++ t.toList := by
      rw [hlayout, List.append_assoc]
      rfl
    have hfront : b.length - authTagSize =
        ((ofKind .nonInteractiveAuth u v).toBytes ++ r.layout pad).length := by
      rw [hsplit, List.length_append, t.length_toList, Nat.add_sub_cancel]
    rw [hfront, hsplit, List.take_left, List.drop_left]
    exact ⟨⟨pad, hauthR.mpr hoffer, retype_toBytes_append ..⟩, rfl⟩
  · rintro ⟨⟨pad, hfits, hlayout⟩, htag⟩
    have hoffer := hauthR.mp hfits
    have hbyte : (b.take (b.length - authTagSize))[2]? = some Kind.nonInteractiveAuth.toByte := by
      have hthird : 2 < b.length - authTagSize :=
        Nat.lt_of_lt_of_le (show 2 < size by decide) (Nat.le_sub_of_add_le hlength)
      rw [List.getElem?_take_of_lt hthird, hb]
    have hfront : b.take (b.length - authTagSize) =
        (ofKind .nonInteractiveAuth u v).toBytes ++ r.layout pad := by
      rw [← retype_of_getElem? hbyte, ← retype_retype .nonInteractiveAuth .authR, hlayout]
      exact retype_toBytes_append ..
    refine ⟨pad, Body.fits_nonInteractiveAuth.mpr ⟨hoffer, nofun⟩, ?_⟩
    rw [← List.take_append_drop (b.length - authTagSize) b, hfront, htag, List.append_assoc]
    rfl

/-- Under the byte of the other kind, an identity message is read and written as a prekey message with the
same parts, or refused for the same reason. A sealed reply is read without a payload if its last bytes are the
authentication tag and the bytes in front of them, under the byte of the interactive kind, are its reply. -/
theorem siblings_share_body :
    (∀ b : Bytes, b[2]? = some Kind.identity.toByte →
      ofBytes .prekey (retype .prekey b) = toPrekey <$> ofBytes .identity b) ∧
    (∀ e : Envelope .identity, e.toPrekey.toBytes = retype .prekey <$> e.toBytes ∧
      ∀ b, e.toBytes = .ok b → b[2]? = some Kind.identity.toByte) ∧
    ∀ b : Bytes, size + authTagSize ≤ b.length → b[2]? = some Kind.nonInteractiveAuth.toByte →
      let front := b.take (b.length - authTagSize)
      let last := b.drop (b.length - authTagSize)
      ∀ (u v : UInt32) (r : Reply) (t : Block authTagSize),
        ofBytes .nonInteractiveAuth b = .ok ⟨u, v, (⟨r, none, t⟩ : SealedReply)⟩ ↔
          ofBytes .authR (retype .authR front) = .ok ⟨u, v, r⟩ ∧ last = t.toList :=
  ⟨fun _ hb => ofBytes_prekey_retype hb, fun e => ⟨toBytes_toPrekey e, fun _ hb => getElem?_of_toBytes hb⟩,
    fun _ hlength hb => ofBytes_nonInteractiveAuth_iff hlength hb⟩

def sampleOffer : Offer := ⟨.empty, .base, .ofBytes [0, 7]⟩

theorem fits_sampleOffer : sampleOffer.Fits 0 := ⟨⟨by decide, by decide⟩, by decide⟩

theorem siblings_share_body_sampleOffer :
    (∃ b, b[2]? = some Kind.identity.toByte ∧ ofBytes .identity b = .ok ⟨1, 2, sampleOffer⟩ ∧
      ofBytes .prekey (retype .prekey b) = .ok ⟨1, 2, sampleOffer⟩) ∧
    ∃ b, size + authTagSize ≤ b.length ∧ b[2]? = some Kind.nonInteractiveAuth.toByte ∧
      ofBytes .nonInteractiveAuth b =
        .ok ⟨1, 2, (⟨⟨sampleOffer, .zero⟩, none, .zero authTagSize⟩ : SealedReply)⟩ ∧
      ofBytes .authR (retype .authR (b.take (b.length - authTagSize))) =
        .ok ⟨1, 2, (⟨sampleOffer, .zero⟩ : Reply)⟩ := by
  obtain ⟨hread, -, hsealed⟩ := siblings_share_body
  constructor
  · let e : Envelope .identity := ⟨1, 2, sampleOffer⟩
    have he : ofBytes .identity (e.layout 0) = .ok e :=
      ofBytes_eq_ok_iff.mpr ⟨0, (Body.fits_iff_of_offer (k := .identity) rfl rfl).mpr fits_sampleOffer, rfl⟩
    refine ⟨e.layout 0, rfl, he, ?_⟩
    rw [hread _ rfl, he]
    rfl
  · let r : Reply := ⟨sampleOffer, .zero⟩
    let e : Envelope .nonInteractiveAuth := ⟨1, 2, (⟨r, none, .zero authTagSize⟩ : SealedReply)⟩
    have he : ofBytes .nonInteractiveAuth (e.layout 0) = .ok e :=
      ofBytes_eq_ok_iff.mpr ⟨0, Body.fits_nonInteractiveAuth.mpr ⟨fits_sampleOffer, nofun⟩, rfl⟩
    have hlength : size + authTagSize ≤ (e.layout 0).length := by
      simp only [layout, e, Body.layout, SealedReply.layout, List.length_append, Header.length_toBytes,
        Block.length_toList]
      omega
    exact ⟨e.layout 0, hlength, rfl, he, ((hsealed _ hlength rfl 1 2 r _).mp he).1⟩

end Envelope

end DeniableHandshake
