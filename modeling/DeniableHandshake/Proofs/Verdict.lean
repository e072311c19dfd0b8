import DeniableHandshake.Proofs.Gate
import DeniableHandshake.Proofs.Message.Canonical
import DeniableHandshake.Proofs.Modp3072.Membership
import DeniableHandshake.Proofs.Profile.Signed
import DeniableHandshake.Proofs.Profile.Versions
import DeniableHandshake.Receive

/-!
# The report of the gate

The gate accepts exactly the material that passes all five checks, and otherwise reports the checks that
failed in the order in which they are made. The verdict on the offer of a message depends on nothing else in
the message, nor on how the offer was encoded, and as time goes on it changes at the expiry only.
-/
namespace DeniableHandshake

namespace Gate

variable {point : Curve448.Point} {value : Modp3072.Value} {profile : Profile} {now : UInt64}

theorem check_eq_accept_iff_passed : check point value profile now = .accept ↔
    point.isValid = true ∧ value.isValid = true ∧ profile.verifies = true ∧ now < profile.expires ∧
      ∀ b ∈ utf8 profile.versions, b = '3'.toUInt8 ∨ b = '4'.toUInt8 := by
  rw [check_eq_accept_iff, ← Profile.versionsAccepted_iff]
  simp only [checks, List.forall_mem_cons, Profile.isExpired, Bool.not_eq_true', decide_eq_false_iff_not,
    UInt64.not_le, List.not_mem_nil, false_imp_iff, implies_true, and_true]

theorem passes_iff : passes point value profile now = true ↔ check point value profile now = .accept := by
  rw [passes]
  cases check point value profile now with
  | accept => exact ⟨fun _ => rfl, fun _ => rfl⟩
  | reject failures => exact ⟨nofun, nofun⟩

theorem failures_sublist : (check point value profile now).failures.Sublist
    [.invalidPoint, .invalidGroupValue, .badSignature, .expired profile.expires now, .rejectedVersions] := by
  rw [failures_check]
  exact List.filter_sublist.map Prod.snd

theorem badSignature_mem_failures :
    .badSignature ∈ (check point value profile now).failures ↔ profile.verifies = false := by
  simp [mem_failures_iff, checks]

theorem expired_mem_failures : .expired profile.expires now ∈ (check point value profile now).failures ↔
    profile.expires ≤ now := by
  simp [mem_failures_iff, checks, Profile.isExpired]

theorem rejectedVersions_mem_failures :
    .rejectedVersions ∈ (check point value profile now).failures ↔
      ∃ b ∈ utf8 profile.versions, b ≠ '3'.toUInt8 ∧ b ≠ '4'.toUInt8 := by
  have hversions : profile.versionsAccepted = false ↔
      ∃ b ∈ utf8 profile.versions, b ≠ '3'.toUInt8 ∧ b ≠ '4'.toUInt8 := by
    rw [← Bool.not_eq_true, Profile.versionsAccepted_iff]
    push Not
    rfl
  rw [← hversions]
  simp [mem_failures_iff, checks]

/-- The failures are those of the checks that failed, each of them once and in order. -/
structure Reports (point : Curve448.Point) (value : Modp3072.Value) (profile : Profile) (now : UInt64)
    (failures : List Failure) : Prop where
  sublist : failures.Sublist
    [.invalidPoint, .invalidGroupValue, .badSignature, .expired profile.expires now, .rejectedVersions]
  invalidPoint : .invalidPoint ∈ failures ↔ point.isValid = false
  invalidGroupValue : .invalidGroupValue ∈ failures ↔ value.isValid = false
  badSignature : .badSignature ∈ failures ↔ profile.verifies = false
  expired : .expired profile.expires now ∈ failures ↔ profile.expires ≤ now
  rejectedVersions : .rejectedVersions ∈ failures ↔
    ∃ b ∈ utf8 profile.versions, b ≠ '3'.toUInt8 ∧ b ≠ '4'.toUInt8

theorem reports_failures : Reports point value profile now (check point value profile now).failures :=
  ⟨failures_sublist, invalidPoint_mem_failures, invalidGroupValue_mem_failures,
    badSignature_mem_failures, expired_mem_failures, rejectedVersions_mem_failures⟩

theorem check_of_ne_accept (h : check point value profile now ≠ .accept) :
    ∃ failures, check point value profile now = .reject failures ∧ failures ≠ [] ∧
      Reports point value profile now failures := by
  have hreports : Reports point value profile now _ := reports_failures
  rw [ne_eq, check_eq_accept_iff_failures] at h
  cases hcheck : check point value profile now with
  | accept =>
    rw [hcheck] at h
    exact absurd rfl h
  | reject failures =>
    rw [hcheck] at h hreports
    exact ⟨failures, rfl, h, hreports⟩

/-- The other checks do not look at the time. -/
theorem accepting_times (point : Curve448.Point) (value : Modp3072.Value) (profile : Profile) :
    { now | check point value profile now = .accept } = ∅ ∨
      { now | check point value profile now = .accept } = { now | now < profile.expires } := by
  by_cases hpassed : point.isValid = true ∧ value.isValid = true ∧ profile.verifies = true ∧
      ∀ b ∈ utf8 profile.versions, b = '3'.toUInt8 ∨ b = '4'.toUInt8
  · right
    obtain ⟨hpoint, hvalue, hverifies, hversions⟩ := hpassed
    ext now
    rw [Set.mem_ofPred_eq, Set.mem_ofPred_eq, check_eq_accept_iff_passed]
    exact ⟨fun h => h.2.2.2.1, fun hnow => ⟨hpoint, hvalue, hverifies, hnow, hversions⟩⟩
  · left
    ext now
    rw [Set.mem_ofPred_eq, check_eq_accept_iff_passed]
    refine iff_of_false ?_ (Set.notMem_empty now)
    rintro ⟨hpoint, hvalue, hverifies, -, hversions⟩
    exact hpassed ⟨hpoint, hvalue, hverifies, hversions⟩

end Gate

/-- The number of a received value does not depend on the zero bytes in front of its magnitude. -/
theorem Message.ofBigEndian_receivedMagnitude {m : Message} {b : Bytes} {o : Offer}
    (hb : Message.ofBytes b = .ok m) (ho : m.offer? = some o) :
    ofBigEndian (m.receivedMagnitude b) = o.value.toNat := by
  obtain ⟨e, k, -, hpadding, hk⟩ := exists_isPadding hb
  rw [hpadding.receivedMagnitude_eq ho (hk o ho), ofBigEndian_replicate_append]
  rfl

/-- The transitional signature is no matter of the gate. -/
theorem Offer.check_congr {o o' : Offer} (hpoint : o.point = o'.point)
    (hvalue : o.value.toNat = o'.value.toNat)
    (hkey : o.profile.identityKey = o'.profile.identityKey)
    (hversions : o.profile.versions = o'.profile.versions)
    (hexpires : o.profile.expires = o'.profile.expires)
    (hsignature : o.profile.signature = o'.profile.signature) (now : UInt64) :
    o.check now = o'.check now := by
  have hvalue' : o.value = o'.value := by
    rw [o.value.eq_ofNat_toNat, hvalue, ← o'.value.eq_ofNat_toNat]
  unfold Offer.check Gate.check Gate.checks Profile.verifies Profile.isExpired Profile.versionsAccepted
  rw [hpoint, hvalue', hkey, hversions, hexpires, hsignature]

namespace Gate

/-- The gate accepts what passes all checks and reports what failed otherwise. Two messages that were
received get the same verdict if their point, the number of their value, and the identity key, versions,
expiry and signature of their profile are the same. The times at which an offer is accepted are those
before its expiry, if there are any. -/
theorem verdict_exact :
    (∀ point value profile now,
      (check point value profile now = .accept ↔
        point.isValid = true ∧ value.isValid = true ∧ profile.verifies = true ∧
          now < profile.expires ∧ ∀ b ∈ utf8 profile.versions, b = '3'.toUInt8 ∨ b = '4'.toUInt8) ∧
      (check point value profile now ≠ .accept →
        ∃ failures, check point value profile now = .reject failures ∧ failures ≠ [] ∧
          Reports point value profile now failures) ∧
      (passes point value profile now = true ↔ check point value profile now = .accept)) ∧
    (∀ b b' m m' o o', Message.ofBytes b = .ok m → Message.ofBytes b' = .ok m' →
      m.offer? = some o → m'.offer? = some o' → o.point = o'.point →
      ofBigEndian (m.receivedMagnitude b) = ofBigEndian (m'.receivedMagnitude b') →
      o.profile.identityKey = o'.profile.identityKey → o.profile.versions = o'.profile.versions →
      o.profile.expires = o'.profile.expires → o.profile.signature = o'.profile.signature →
        ∀ now, o.check now = o'.check now) ∧
    ∀ point value profile,
      { now | check point value profile now = .accept } = ∅ ∨
        { now | check point value profile now = .accept } = { now | now < profile.expires } := by
  refine ⟨fun point value profile now => ?_, ?_, accepting_times⟩
  · exact ⟨check_eq_accept_iff_passed, check_of_ne_accept, passes_iff⟩
  · intro b b' m m' o o' hb hb' ho ho' hpoint hmagnitude hkey hversions hexpires hsignature
    rw [Message.ofBigEndian_receivedMagnitude hb ho,
      Message.ofBigEndian_receivedMagnitude hb' ho'] at hmagnitude
    exact Offer.check_congr hpoint hmagnitude hkey hversions hexpires hsignature

/-- The base point, the generator and a profile that was signed here. -/
def sampleOffer (transitional : Bytes) : Offer :=
  ⟨{ Profile.sign (.zero 32) "34" 100 with transitional := transitional }, .base, .ofBytes [2]⟩

theorem fits_sampleOffer {transitional : Bytes} {pad : Nat} (ht : transitional.length < 2 ^ 32)
    (hpad : pad < Modp3072.width) : (sampleOffer transitional).Fits pad := by
  refine ⟨⟨?_, ht⟩, ?_⟩
  · change (utf8 "34").length < 2 ^ 32
    decide
  · change 1 + pad ≤ Modp3072.width
    omega

/-- An offer as it was first sent, with two zero bytes in front of its group value, and in a reply of
another sender with another transitional signature: the gate takes both before the expiry, and at the
expiry it reports that. -/
theorem verdict_exact_sampleOffer :
    let m : Message := ⟨.identity, 1, 0, sampleOffer []⟩
    let m' : Message := ⟨.authR, 7, 1, (⟨sampleOffer [5], .zero⟩ : Reply)⟩
    ∃ b b', Message.ofBytes b = .ok m ∧ Message.ofBytes b' = .ok m' ∧
      m.receivedMagnitude b = [0, 0, 2] ∧ m'.receivedMagnitude b' = [2] ∧
      (∀ now, (sampleOffer []).check now = (sampleOffer [5]).check now) ∧
      { now | (sampleOffer []).check now = .accept } = { now | now < 100 } ∧
      ∃ failures, (sampleOffer []).check 100 = .reject failures ∧ .expired 100 100 ∈ failures ∧
        .badSignature ∉ failures := by
  intro m m'
  obtain ⟨hverdict, hcongr, htimes⟩ := verdict_exact
  have hb : Message.ofBytes (m.envelope.layout 2) = .ok m :=
    Message.ofBytes_eq_ok_iff.mpr
      ⟨2, (Body.fits_iff_of_offer rfl rfl).mpr (fits_sampleOffer (by decide) (by decide)), rfl⟩
  have hb' : Message.ofBytes (m'.envelope.layout 0) = .ok m' :=
    Message.ofBytes_eq_ok_iff.mpr
      ⟨0, (Body.fits_iff_of_offer rfl rfl).mpr (fits_sampleOffer (by decide) (by decide)), rfl⟩
  have hpadding : m.IsPadding 2 (m.envelope.layout 0) (m.envelope.layout 2) :=
    Message.isPadding_layout nofun
  have hpadding' : m'.IsPadding 0 (m'.envelope.layout 0) (m'.envelope.layout 0) :=
    Message.isPadding_layout nofun
  have hmagnitude : m.receivedMagnitude (m.envelope.layout 2) = [0, 0, 2] :=
    hpadding.receivedMagnitude_eq (o := sampleOffer []) rfl (by decide)
  have hmagnitude' : m'.receivedMagnitude (m'.envelope.layout 0) = [2] :=
    hpadding'.receivedMagnitude_eq (o := sampleOffer [5]) rfl (by decide)
  have hsame := hcongr _ _ m m' _ _ hb hb' rfl rfl rfl (by rw [hmagnitude, hmagnitude']; decide)
    rfl rfl rfl rfl
  have hvalue : (Modp3072.Value.ofBytes [2]).isValid = true :=
    Modp3072.Value.isValid_iff_exists_power.mpr ⟨1, by decide, by decide, by decide +kernel⟩
  have hverifies : (sampleOffer []).profile.verifies = true := Profile.verifies_sign (.zero 32) "34" 100
  have hversions : ∀ b ∈ utf8 "34", b = '3'.toUInt8 ∨ b = '4'.toUInt8 := by decide +kernel
  have haccepted : (sampleOffer []).check 50 = .accept :=
    (hverdict _ _ _ 50).1.mpr ⟨Curve448.Point.isValid_base, hvalue, hverifies, by decide, hversions⟩
  have hexpired : (sampleOffer []).check 100 ≠ .accept := by
    intro haccept
    obtain ⟨-, -, -, hnow, -⟩ := (hverdict _ _ _ 100).1.mp haccept
    exact absurd hnow (by decide : ¬ (100 : UInt64) < 100)
  obtain ⟨failures, hreject, -, hreports⟩ := (hverdict _ _ _ 100).2.1 hexpired
  refine ⟨_, _, hb, hb', hmagnitude, hmagnitude', hsame, ?_, failures, hreject, ?_, ?_⟩
  · obtain hnever | hbefore := htimes .base (.ofBytes [2]) (sampleOffer []).profile
    · have hmem : 50 ∈ { now | check .base (.ofBytes [2]) (sampleOffer []).profile now = .accept } :=
        haccepted
      rw [hnever] at hmem
      cases hmem
    · exact hbefore
  · exact hreports.expired.mpr (by decide : (100 : UInt64) ≤ 100)
  · rw [hreports.badSignature, hverifies]
    nofun

end Gate

end DeniableHandshake
