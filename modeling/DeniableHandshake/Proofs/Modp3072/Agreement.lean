import DeniableHandshake.Proofs.Modp3072.Membership

/-!
# Group key pairs always agree

A power of an accepted value by a short exponent is accepted again: the order is prime and longer than
any exponent, so it divides the product of two exponents only if one of them is zero. What two key pairs
share is therefore never one.
-/
namespace DeniableHandshake.Modp3072

/-- The bytes are the number, filled up with zeros from the left. -/
def IsPadded (s : Block width) (n : Nat) : Prop :=
  s.toList = List.replicate (width - (magnitude n).length) 0 ++ magnitude n

theorem isPadded_bigEndian {n : Nat} (h : n < prime) : IsPadded (.bigEndian width n) n := by
  rw [IsPadded, Block.toList_bigEndian, toBigEndian_eq_replicate_append (h.trans prime_lt_bytes)]

namespace Keypair

variable {k k' : Keypair} {their : Value} {entropy rest : Entropy}

theorem secret_lt (k : Keypair) : k.secret < order := exponent_lt_order k.exponent

theorem not_dvd_secret (h : k.secret ≠ 0) : ¬ order ∣ k.secret := fun hdvd =>
  absurd (Nat.le_of_dvd (Nat.pos_of_ne_zero h) hdvd) (Nat.not_le.mpr k.secret_lt)

theorem isEmpty_eq_false (h : k.secret ≠ 0) : k.isEmpty = false := by
  rw [← Bool.not_eq_true, isEmpty, Block.isZero_iff, ← Block.ofBigEndian_eq_zero_iff]
  exact h

theorem isGenerated_of_generate (h : generate entropy = .ok (k, rest)) : k.IsGenerated := by
  simp only [generate, bind, Except.bind] at h
  cases hdraw : entropy.draw exponentSize with
  | error e =>
    rw [hdraw] at h
    cases h
  | ok drawn =>
    rw [hdraw] at h
    obtain ⟨rfl, -⟩ := Prod.mk.inj (Except.ok.inj h)
    rfl

theorem isValid_value (hk : k.IsGenerated) (h : k.secret ≠ 0) : k.value.isValid = true :=
  Value.isValid_iff_exists_power.mpr ⟨k.secret, Nat.pos_of_ne_zero h, k.secret_lt, toNat_value hk⟩

/-- The integer that is shared is accepted as a value. -/
theorem isValid_shared (htheir : their.isValid = true) (h : k.secret ≠ 0) :
    (Value.ofNat (power their.toNat k.secret)).isValid = true := by
  obtain ⟨e, hpos, he, hpower⟩ := Value.isValid_iff_exists_power.mp htheir
  rw [hpower, power_power, Value.isValid_ofNat_power_iff, ne_eq, power_generator_eq_one_iff,
    prime_order.dvd_mul, not_or]
  exact ⟨fun hdvd => absurd (Nat.le_of_dvd hpos hdvd) (Nat.not_le.mpr he), not_dvd_secret h⟩

theorem shared_of_isValid_of_ne_zero (htheir : their.isValid = true) (h : k.secret ≠ 0) :
    k.shared their = .ok (.bigEndian width (power their.toNat k.secret)) :=
  shared_eq_ok_iff.mpr ⟨isEmpty_eq_false h, htheir, rfl⟩

theorem shared_of_isGenerated (h : k.secret ≠ 0) (hk' : k'.IsGenerated) (h' : k'.secret ≠ 0) :
    k.shared k'.value = .ok (.bigEndian width (power generator (k.secret * k'.secret))) := by
  rw [shared_of_isValid_of_ne_zero (isValid_value hk' h') h, toNat_value hk', power_power, Nat.mul_comm]

/-- Two key pairs that were generated with exponents other than zero agree, and a key pair agrees with
every accepted value on one that is accepted again. Modulus and order are prime (`prime_prime`,
`prime_order`). -/
theorem shared_agrees :
    (∀ (entropy entropy' rest rest' : Entropy) (k k' : Keypair), generate entropy = .ok (k, rest) →
      generate entropy' = .ok (k', rest') → k.secret ≠ 0 → k'.secret ≠ 0 →
      k.value.isValid = true ∧ k'.value.isValid = true ∧
      ∃ s, k.shared k'.value = .ok s ∧ k'.shared k.value = .ok s ∧
        IsPadded s (generator ^ (k.secret * k'.secret) % prime)) ∧
      ∀ (k : Keypair) (their : Value), their.isValid = true → k.secret ≠ 0 →
        ∃ s, k.shared their = .ok s ∧ IsPadded s (their.toNat ^ k.secret % prime) ∧
          2 ≤ their.toNat ^ k.secret % prime ∧ their.toNat ^ k.secret % prime ≤ prime - 2 ∧
          (∃ e, 0 < e ∧ e < order ∧ their.toNat ^ k.secret % prime = generator ^ e % prime) ∧
          (Value.ofNat (their.toNat ^ k.secret % prime)).isValid = true := by
  constructor
  · intro entropy entropy' rest rest' k k' hgenerate hgenerate' h h'
    have hk := isGenerated_of_generate hgenerate
    have hk' := isGenerated_of_generate hgenerate'
    have hshared := shared_of_isGenerated h hk' h'
    have hshared' := shared_of_isGenerated h' hk h
    rw [Nat.mul_comm] at hshared'
    have hpadded := isPadded_bigEndian (power_lt generator (k.secret * k'.secret))
    rw [power, modPow_eq] at hpadded hshared hshared'
    exact ⟨isValid_value hk h, isValid_value hk' h', _, hshared, hshared', hpadded⟩
  · intro k their htheir h
    have hvalid := isValid_shared htheir h
    have hshared := shared_of_isValid_of_ne_zero htheir h
    have hpadded := isPadded_bigEndian (power_lt their.toNat k.secret)
    rw [power, modPow_eq] at hvalid hshared hpadded
    obtain ⟨hlow, hhigh, -⟩ := Value.isValid_iff.mp hvalid
    obtain ⟨e, hpos, he, hpower⟩ := Value.isValid_iff_exists_power.mp hvalid
    rw [Value.toNat_ofNat] at hlow hhigh hpower
    rw [power, modPow_eq] at hpower
    exact ⟨_, hshared, hpadded, hlow, hhigh, ⟨e, hpos, he, hpower⟩, hvalid⟩

def sampleKeypair (n : Nat) : Keypair := ofExponent (.bigEndian exponentSize n)

theorem generate_sampleKeypair (n : Nat) :
    generate [.ok (Block.bigEndian exponentSize n).toList] = .ok (sampleKeypair n, []) := by
  simp only [generate, Entropy.draw, Block.fit_toList, bind, Except.bind, sampleKeypair]

theorem secret_sampleKeypair {n : Nat} (h : n < 256 ^ exponentSize) : (sampleKeypair n).secret = n := by
  rw [secret, sampleKeypair, ofExponent, Block.toList_bigEndian, ofBigEndian_toBigEndian,
    Nat.mod_eq_of_lt h]

theorem shared_agrees_four_eight :
    generate [.ok (Block.bigEndian exponentSize 4).toList] = .ok (sampleKeypair 4, []) ∧
      generate [.ok (Block.bigEndian exponentSize 8).toList] = .ok (sampleKeypair 8, []) ∧
      (sampleKeypair 4).secret = 4 ∧ (sampleKeypair 8).secret = 8 ∧
      (sampleKeypair 8).value.isValid = true ∧
      (∃ s, (sampleKeypair 4).shared (sampleKeypair 8).value = .ok s ∧
        (sampleKeypair 8).shared (sampleKeypair 4).value = .ok s ∧
        IsPadded s (generator ^ (4 * 8) % prime)) ∧
      2 ≤ (sampleKeypair 8).value.toNat ^ 4 % prime := by
  have hgenerate := generate_sampleKeypair 4
  have hgenerate' := generate_sampleKeypair 8
  have hfour : (sampleKeypair 4).secret = 4 := secret_sampleKeypair (by decide)
  have height : (sampleKeypair 8).secret = 8 := secret_sampleKeypair (by decide)
  have hne : (sampleKeypair 4).secret ≠ 0 := by rw [hfour]; decide
  have hne' : (sampleKeypair 8).secret ≠ 0 := by rw [height]; decide
  obtain ⟨-, hvalid, hshared⟩ := shared_agrees.1 _ _ _ _ _ _ hgenerate hgenerate' hne hne'
  obtain ⟨-, -, -, hlow, -⟩ := shared_agrees.2 _ _ hvalid hne
  rw [hfour, height] at hshared
  rw [hfour] at hlow
  exact ⟨hgenerate, hgenerate', hfour, height, hvalid, hshared, hlow⟩

end Keypair

end DeniableHandshake.Modp3072
