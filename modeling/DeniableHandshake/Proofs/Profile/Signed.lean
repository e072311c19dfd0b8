import DeniableHandshake.Profile.Signature
import DeniableHandshake.Proofs.Profile.Layout
import DeniableHandshake.Proofs.Profile.Versions
import DeniableHandshake.Proofs.Signature.Ed25519

/-!
# What is signed is what travels

The bytes of a profile in front of its signature are the bytes under the signature, for the signer,
for the verifier and on the wire. They determine the identity key, the versions and the expiry, and
the transitional signature is no part of them.
-/
namespace DeniableHandshake

namespace Profile

variable {key key' : Block identityKeySize} {versions versions' : String} {expires expires' : UInt64}

theorem length_signedBody : (signedBody key versions expires).length = 46 + (utf8 versions).length := by
  simp only [signedBody, List.length_append, length_toBigEndian, Block.length_toList, identityKeySize]
  omega

/-- The versions stand between parts of fixed length. -/
theorem signedBody_injective (h : signedBody key versions expires = signedBody key' versions' expires') :
    key = key' ∧ versions = versions' ∧ expires = expires' := by
  unfold signedBody at h
  obtain ⟨hfront, hexpires⟩ := List.append_inj' h (by simp)
  obtain ⟨hlength, hversions⟩ := List.append_inj hfront (by simp [Block.length_toList])
  obtain ⟨htyped, -⟩ := List.append_inj' hlength (by simp)
  have hkey := List.append_cancel_left htyped
  have htime := (toBigEndian_inj expires.toNat_lt expires'.toNat_lt).mp hexpires
  exact ⟨Block.ext hkey, utf8_injective hversions, UInt64.toNat_inj.mp htime⟩

variable {p : Profile} {src : Bytes} {n : Nat}

/-- A profile is read from its layout in front of anything, and from nothing else. -/
theorem read_eq_ok_iff : Field.profile.read src = .ok (p, n) ↔
    p.Encodable ∧ p.size = n ∧ ∃ rest, src = p.layout ++ rest := by
  constructor
  · intro h
    obtain ⟨hn, hreads⟩ := Field.profile.selfDelimiting.reads h
    obtain ⟨hp, hlayout⟩ := Field.writes_profile.mp (Field.Canonical.reads_iff_writes.mp hreads)
    refine ⟨hp, ?_, src.drop n, ?_⟩
    · rw [← p.length_layout, ← hlayout, List.length_take_of_le hn]
    · rw [← hlayout, List.take_append_drop]
  · rintro ⟨hp, rfl, rest, rfl⟩
    have hreads : Field.profile.read.Reads p.layout p :=
      Field.Canonical.reads_iff_writes.mpr (Field.writes_profile.mpr ⟨hp, rfl⟩)
    rw [hreads rest, p.length_layout]

/-- The bytes of a received profile: the signed ones, the signature, and what is covered by nothing. -/
theorem read_eq_ok_signed (h : Field.profile.read src = .ok (p, n)) :
    signedBody p.identityKey p.versions p.expires = src.take (46 + (utf8 p.versions).length) ∧
      p.signature.toList = (src.drop (46 + (utf8 p.versions).length)).take signatureSize := by
  obtain ⟨-, -, rest, rfl⟩ := read_eq_ok_iff.mp h
  rw [layout, List.append_assoc, List.take_left' length_signedBody,
    List.drop_left' length_signedBody, List.append_assoc, List.take_left' p.signature.length_toList]
  exact ⟨rfl, rfl⟩

theorem read_eq_ok_write (h : Field.profile.read src = .ok (p, n)) :
    n ≤ src.length ∧ n = p.size ∧ Field.profile.write p [] = .ok n (src.take n) := by
  have hn := Field.profile.selfDelimiting.bounded.count_le h
  obtain ⟨hp, rfl, rest, rfl⟩ := read_eq_ok_iff.mp h
  have hwrite := Field.writes_profile.mpr ⟨hp, rfl⟩ []
  rw [p.length_layout] at hwrite
  rw [List.take_left' p.length_layout]
  exact ⟨hn, rfl, hwrite⟩

/-- The last field is the only one that can be too long after the versions. -/
theorem fails_of_transitional (hversions : (utf8 p.versions).length < 2 ^ 32)
    (ht : 2 ^ 32 ≤ p.transitional.length) :
    Field.profile.Fails p (.tooLarge "data" p.transitional.length (2 ^ 32 - 1))
      (signedBody p.identityKey p.versions p.expires ++ p.signature.toList) := by
  have hlong : ¬ p.transitional.length ≤ Field.lengthLimit := by
    rw [Field.lengthLimit_eq]
    omega
  have hfails : Field.profile.Fails p (.tooLarge "data" p.transitional.length Field.lengthLimit)
      (toBigEndian 2 ed25519KeyType.toNat ++ (p.identityKey.toList ++
        (lengthPrefixed (utf8 p.versions) ++ (toBigEndian 8 p.expires.toNat ++
          (p.signature.toList ++ []))))) := by
    rw [Field.profile, Field.fails_iso]
    apply Field.Fails.pair_right (Field.writes_keyType.mpr rfl)
    apply Field.Fails.pair_right (Field.writes_block.mpr rfl)
    apply Field.Fails.pair_right (Field.writes_versions.mpr ⟨hversions, rfl⟩)
    apply Field.Fails.pair_right (Field.writes_u64.mpr rfl)
    apply Field.Fails.pair_right (Field.writes_block.mpr rfl)
    exact Field.fails_delimited "data" hlong
  rw [Field.lengthLimit_eq] at hfails
  simpa only [signedBody, lengthPrefixed, Field.lengthSize, List.append_assoc, List.append_nil]
    using hfails

theorem verifies_sign (seed : Block 32) (versions : String) (expires : UInt64) :
    (sign seed versions expires).verifies = true := by
  rw [verifies, sign]
  exact Ed25519.verify_sign seed _

/-- The bytes under the signature are the bytes in front of it on the wire, they determine what is
signed, and a profile that was signed holds the key of the seed and what was signed with it, and
verifies also when it has travelled. -/
theorem signed_bytes_travel :
    (∀ src p n, Field.profile.read src = .ok (p, n) →
      let signed := 46 + (utf8 p.versions).length
      n ≤ src.length ∧ n = p.size ∧ Field.profile.write p [] = .ok n (src.take n) ∧
        signedBody p.identityKey p.versions p.expires = src.take signed ∧
        p.signature.toList = (src.drop signed).take signatureSize ∧
        p.verifies = Ed25519.verify p.identityKey (src.take signed) p.signature) ∧
    (∀ p : Profile, (utf8 p.versions).length < 2 ^ 32 →
      let front := signedBody p.identityKey p.versions p.expires ++ p.signature.toList
      (p.transitional.length < 2 ^ 32 →
        Field.profile.Writes p (front ++ lengthPrefixed p.transitional)) ∧
      (2 ^ 32 ≤ p.transitional.length →
        Field.profile.Fails p (.tooLarge "data" p.transitional.length (2 ^ 32 - 1)) front)) ∧
    (∀ key versions expires key' versions' expires',
      signedBody key versions expires = signedBody key' versions' expires' →
        key = key' ∧ versions = versions' ∧ expires = expires') ∧
    (∀ (p : Profile) transitional, { p with transitional := transitional }.verifies = p.verifies) ∧
    ∀ seed versions expires,
      let signed := sign seed versions expires
      signed.identityKey = Ed25519.publicKey seed ∧ signed.versions = versions ∧
        signed.expires = expires ∧ signed.transitional = [] ∧
        signed.signature = Ed25519.sign seed (signedBody signed.identityKey versions expires) ∧
        signed.verifies = true ∧
        ∀ transitional, let p := { signed with transitional := transitional }
          p.verifies = true ∧ ((utf8 versions).length < 2 ^ 32 → transitional.length < 2 ^ 32 →
            ∃ b, Field.profile.Writes p b ∧
              ∀ rest, Field.profile.read (b ++ rest) = .ok (p, b.length)) := by
  refine ⟨?_, ?_, ?_, fun _ _ => rfl, ?_⟩
  · intro src p n h signed
    obtain ⟨hn, hsize, hwrite⟩ := read_eq_ok_write h
    obtain ⟨hbody, hsignature⟩ := read_eq_ok_signed h
    refine ⟨hn, hsize, hwrite, hbody, hsignature, ?_⟩
    rw [verifies, hbody]
  · intro p hversions front
    refine ⟨fun ht => ?_, fails_of_transitional hversions⟩
    rw [List.append_assoc]
    exact Field.writes_profile.mpr ⟨⟨hversions, ht⟩, rfl⟩
  · intro key versions expires key' versions' expires' h
    exact signedBody_injective h
  · intro seed versions expires signed
    have hverifies := verifies_sign seed versions expires
    refine ⟨rfl, rfl, rfl, rfl, rfl, hverifies, fun transitional => ?_⟩
    intro p
    refine ⟨hverifies, fun hversions ht => ?_⟩
    have hwrites : Field.profile.Writes p p.layout := Field.writes_profile.mpr ⟨⟨hversions, ht⟩, rfl⟩
    exact ⟨p.layout, hwrites, Field.profile.reads_of_writes hwrites⟩

/-- A profile of two versions with a byte after it, and one that is signed and given a transitional
signature. -/
theorem signed_bytes_travel_samples :
    let p : Profile := ⟨.bigEndian 32 3, "34", 0x6000000000, .bigEndian 64 7, [1, 2]⟩
    let src := p.layout ++ [9]
    let signed : Profile := { sign (.bigEndian 32 5) "4" 10 with transitional := [8, 8, 8] }
    (Field.profile.read src = .ok (p, 118) ∧ Field.profile.write p [] = .ok 118 (src.take 118) ∧
      signedBody p.identityKey p.versions p.expires = src.take 48) ∧
    signed.identityKey = Ed25519.publicKey (.bigEndian 32 5) ∧ signed.expires = 10 ∧
    ∃ b, Field.profile.Writes signed b ∧ Field.profile.read (b ++ [9]) = .ok (signed, b.length) := by
  intro p src signed
  obtain ⟨hread, -, -, -, hsign⟩ := signed_bytes_travel
  have hp : Field.profile.read src = .ok (p, 118) :=
    read_eq_ok_iff.mpr ⟨⟨by decide, by decide⟩, by decide, [9], rfl⟩
  obtain ⟨-, -, hwrite, hsigned, -⟩ := hread src p 118 hp
  obtain ⟨hkey, -, hexpires, -, -, -, htravels⟩ := hsign (.bigEndian 32 5) "4" 10
  obtain ⟨b, hb, hback⟩ := (htravels [8, 8, 8]).2 (by decide) (by decide)
  exact ⟨⟨hp, hwrite, hsigned⟩, hkey, hexpires, b, hb, hback [9]⟩

end Profile

end DeniableHandshake
