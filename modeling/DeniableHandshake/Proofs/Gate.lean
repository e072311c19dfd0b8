import DeniableHandshake.Gate
import DeniableHandshake.Modp3072.Keypair
import DeniableHandshake.Proofs.Curve448.Keypair

/-!
# What the gate's verdict says

The gate accepts exactly when all its checks pass, and a failure is in the verdict exactly when the
check that reports it fails. A point or a value that passes is set, and an exchange takes it.
-/
namespace DeniableHandshake

namespace Gate

variable {point : Curve448.Point} {value : Modp3072.Value} {profile : Profile} {now : UInt64}

theorem failures_check : (check point value profile now).failures =
    ((checks point value profile now).filter (!·.1)).map (·.2) := by
  unfold check
  split
  · rename_i hnone
    rw [hnone]
    rfl
  · rfl

theorem check_eq_accept_iff_failures : check point value profile now = .accept ↔
    (check point value profile now).failures = [] := by
  rw [failures_check]
  unfold check
  split
  · rename_i hnone
    exact ⟨fun _ => hnone, fun _ => rfl⟩
  · rename_i hsome
    exact ⟨nofun, fun hnone => absurd hnone hsome⟩

theorem check_eq_accept_iff : check point value profile now = .accept ↔
    ∀ c ∈ checks point value profile now, c.1 = true := by
  rw [check_eq_accept_iff_failures, failures_check, List.map_eq_nil_iff, List.filter_eq_nil_iff]
  simp only [Bool.not_eq_true', Bool.not_eq_false]

theorem isValid_of_accept (h : check point value profile now = .accept) :
    point.isValid = true ∧ value.isValid = true := by
  have hchecks := check_eq_accept_iff.mp h
  simp only [checks, List.forall_mem_cons] at hchecks
  exact ⟨hchecks.1, hchecks.2.1⟩

/-- A failure is reported exactly if its check is not passed. -/
theorem mem_failures_iff {f : Failure} : f ∈ (check point value profile now).failures ↔
    (false, f) ∈ checks point value profile now := by
  simp [failures_check]

theorem invalidPoint_mem_failures :
    .invalidPoint ∈ (check point value profile now).failures ↔ point.isValid = false := by
  simp [mem_failures_iff, checks]

theorem invalidGroupValue_mem_failures :
    .invalidGroupValue ∈ (check point value profile now).failures ↔ value.isValid = false := by
  simp [mem_failures_iff, checks]

end Gate

namespace Curve448.Point

variable {p : Point}

theorem isValid_base : base.isValid = true := by decide +kernel

theorem isRefused_of_isValid (h : p.isValid = true) : p.isRefused = false := by
  simp only [isValid, Bool.and_eq_true, Bool.not_eq_true'] at h
  exact h.2

theorem isZero_of_isValid (h : p.isValid = true) : p.isZero = false := by
  have hne := coordinate_ne_zero (isRefused_of_isValid h)
  cases hzero : p.isZero with
  | false => rfl
  | true =>
    have hp : p = zero := congrArg Point.mk (Block.isZero_iff.mp hzero)
    rw [hp] at hne
    exact absurd rfl hne

end Curve448.Point

theorem Curve448.Keypair.shared_of_isValid {k : Keypair} {p : Point} (h : p.isValid = true) :
    k.shared p =
      if (x448 k.scalar p).isZero then .error .lowOrderSecret else .ok (x448 k.scalar p) := by
  rw [shared, exchange_eq, Point.isRefused_of_isValid h, if_neg Bool.false_ne_true]

theorem Modp3072.Value.isZero_of_isValid {v : Value} (h : v.isValid = true) : v.isZero = false := by
  simp only [isValid, Bool.and_eq_true, decide_eq_true_eq] at h
  obtain ⟨⟨⟨-, hlow⟩, -⟩, -⟩ := h
  unfold isZero
  cases hm : v.magnitude with
  | nil =>
    rw [toNat, hm] at hlow
    cases hlow
  | cons top rest => rfl

theorem Modp3072.Keypair.shared_of_isValid {k : Keypair} {v : Value} (h : v.isValid = true) :
    k.shared v = if k.isEmpty then .error (.missingKey .ourGroupKey)
      else .ok (.bigEndian width (power v.toNat k.secret)) := by
  rw [shared, if_pos h]

end DeniableHandshake
