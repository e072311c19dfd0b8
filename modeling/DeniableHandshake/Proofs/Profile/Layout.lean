import DeniableHandshake.Profile.Wire
import DeniableHandshake.Proofs.Wire.Primitive

/-!
# Layout of a profile

What a profile is written as is the signed body, the signature and the transitional signature after
its length. It is read from these bytes only.
-/
namespace DeniableHandshake

namespace Profile

def layout (p : Profile) : Bytes :=
  signedBody p.identityKey p.versions p.expires ++
    (p.signature.toList ++ lengthPrefixed p.transitional)

/-- The lengths of both byte strings can be declared. -/
structure Encodable (p : Profile) : Prop where
  versions : (utf8 p.versions).length < 2 ^ 32
  transitional : p.transitional.length < 2 ^ 32

theorem length_layout (p : Profile) : p.layout.length = p.size := by
  simp only [layout, signedBody, size, List.length_append, length_toBigEndian,
    length_lengthPrefixed, Block.length_toList]
  omega

end Profile

namespace Field

theorem writes_keyType {b : Bytes} :
    keyType.Writes () b ↔ b = toBigEndian 2 Profile.ed25519KeyType.toNat := by
  rw [keyType, writes_refine, writes_u16]

instance : keyType.Canonical := by
  apply Canonical.refine inferInstance
  · intro t n
    split <;> exact nofun
  · intro t v
    by_cases ht : t = Profile.ed25519KeyType
    · simp [ht]
    · simp [ht]

theorem writes_versions {s : String} {b : Bytes} :
    versions.Writes s b ↔ (utf8 s).length < 2 ^ 32 ∧ b = lengthPrefixed (utf8 s) := by
  rw [versions, writes_refine, writes_data]

instance : versions.Canonical := by
  apply Canonical.refine inferInstance
  · intro b n
    split <;> exact nofun
  · intro b s
    constructor
    · intro h
      split at h
      · next t ht =>
        cases h
        exact (utf8_of_ofUtf8? ht).symm
      · cases h
    · rintro rfl
      rw [ofUtf8?_utf8]

instance : profile.Canonical :=
  Canonical.iso inferInstance (fun _ => rfl) fun _ => rfl

theorem writes_profile {p : Profile} {b : Bytes} :
    profile.Writes p b ↔ p.Encodable ∧ b = p.layout := by
  rw [profile, writes_iso]
  simp only [writes_pair, writes_keyType, writes_block, writes_versions, writes_u64, writes_data]
  constructor
  · rintro ⟨_, _, rfl, rfl, _, _, rfl, rfl, _, _, rfl, ⟨hv, rfl⟩, _, _, rfl, rfl, _, _, rfl, rfl,
      ht, rfl⟩
    refine ⟨⟨hv, ht⟩, ?_⟩
    simp only [Profile.layout, Profile.signedBody, lengthPrefixed, lengthSize, List.append_assoc]
  · rintro ⟨hp, rfl⟩
    refine ⟨_, _, ?_, rfl, _, _, rfl, rfl, _, _, rfl, ⟨hp.versions, rfl⟩, _, _, rfl, rfl, _, _, rfl,
      rfl, hp.transitional, rfl⟩
    simp only [Profile.layout, Profile.signedBody, lengthPrefixed, lengthSize, List.append_assoc]

end Field

end DeniableHandshake
