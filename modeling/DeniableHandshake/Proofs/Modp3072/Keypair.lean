import DeniableHandshake.Modp3072.Keypair
import DeniableHandshake.Proofs.Arithmetic.ModularPower
import DeniableHandshake.Proofs.Modp3072.Value

/-!
# Agreement of group key pairs

Powers of powers commute modulo the prime, so two generated key pairs that take each other's public
value give the same shared bytes.
-/
namespace DeniableHandshake.Modp3072

theorem power_power (b x y : Nat) : power (power b x) y = power b (x * y) := by
  simp only [power, modPow_eq, ← Nat.pow_mod, ← Nat.pow_mul]

theorem power_power_eq_one {b e : Nat} (h : power b e = 1) (x : Nat) : power (power b x) e = 1 := by
  have hone : 1 < prime := by decide
  rw [power, modPow_eq] at h
  rw [power_power, Nat.mul_comm, power, modPow_eq, Nat.pow_mul, Nat.pow_mod, h, Nat.one_pow,
    Nat.mod_eq_of_lt hone]

theorem power_generator_order : power generator order = 1 := by
  have hbits : order >>> 3072 = 0 := by decide
  rw [power, modPow_eq_powBits generator prime hbits]
  decide +kernel

/-- The powers of the generator are in the subgroup; the bounds are left to be checked. -/
theorem Value.isValid_ofNat_power {x : Nat}
    (hwidth : (Value.ofNat (power generator x)).magnitude.length ≤ width)
    (hlow : 2 ≤ power generator x) (hhigh : power generator x < prime - 1) :
    (Value.ofNat (power generator x)).isValid = true := by
  have hmember := power_power_eq_one power_generator_order x
  simp only [isValid, Value.toNat_ofNat, hmember, hwidth, hlow, hhigh, decide_true, Bool.and_true,
    beq_self_eq_true]

namespace Keypair

variable {k k' : Keypair} {their : Value} {s s' : Block width}

/-- The key pair is the one that belongs to its exponent. -/
def IsGenerated (k : Keypair) : Prop := k = ofExponent k.exponent

theorem isEmpty_empty : empty.isEmpty = true := Block.isZero_iff.mpr rfl

theorem shared_eq_ok_iff : k.shared their = .ok s ↔
    k.isEmpty = false ∧ their.isValid = true ∧ s = .bigEndian width (power their.toNat k.secret) := by
  unfold shared
  cases hk : k.isEmpty with
  | true => simp
  | false =>
    cases ht : their.isValid with
    | false => simp
    | true => simp [eq_comm]

theorem toNat_value (hk : k.IsGenerated) : k.value.toNat = power generator k.secret := by
  rw [hk, ofExponent, Value.toNat_ofNat]
  rfl

theorem shared_comm (hk : k.IsGenerated) (hk' : k'.IsGenerated) (h : k.shared k'.value = .ok s)
    (h' : k'.shared k.value = .ok s') : s = s' := by
  obtain ⟨-, -, rfl⟩ := shared_eq_ok_iff.mp h
  obtain ⟨-, -, rfl⟩ := shared_eq_ok_iff.mp h'
  rw [toNat_value hk, toNat_value hk', power_power, power_power, Nat.mul_comm]

end Keypair

end DeniableHandshake.Modp3072
