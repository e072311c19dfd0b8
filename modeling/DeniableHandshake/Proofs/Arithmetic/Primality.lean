import DeniableHandshake.Proofs.Arithmetic.ModularPower
import Mathlib.Data.List.Prime
import Mathlib.NumberTheory.LucasPrimality

/-!
# Certificates of primality

A certificate names a root whose powers run through all residues other than zero, and the prime
factors of the predecessor that show it. Certificates build on each other, so a list of them is
checked from its head on.
-/
namespace DeniableHandshake

structure Certificate where
  number : Nat
  root : Nat
  /-- The prime factors of the predecessor of the number, each as often as it divides. -/
  factors : List Nat

namespace Certificate

/-- The factors are known primes, and the order of the root is the predecessor of the number. -/
def check (known : List Nat) (c : Certificate) : Bool :=
  decide (1 < c.number) && c.factors.all (· ∈ known) && c.factors.prod == c.number - 1 &&
    modPow c.root (c.number - 1) c.number == 1 &&
    c.factors.all fun q => modPow c.root ((c.number - 1) / q) c.number != 1

/-- Each certificate may use the numbers of those before it. -/
def checkAll : List Nat → List Certificate → Bool
  | _, [] => true
  | known, c :: cs => c.check known && checkAll (c.number :: known) cs

theorem cast_pow_eq_one_iff {n : Nat} (hn : 1 < n) (b e : Nat) :
    (b : ZMod n) ^ e = 1 ↔ modPow b e n = 1 := by
  rw [modPow_eq, ← Nat.cast_pow, ← Nat.cast_one, ZMod.natCast_eq_natCast_iff', Nat.mod_eq_of_lt hn]

theorem prime_of_check {known : List Nat} {c : Certificate} (hknown : ∀ q ∈ known, q.Prime)
    (h : c.check known = true) : c.number.Prime := by
  simp only [check, Bool.and_eq_true, decide_eq_true_eq, List.all_eq_true, beq_iff_eq,
    bne_iff_ne] at h
  obtain ⟨⟨⟨⟨hnumber, hfactors⟩, hprod⟩, hpower⟩, horder⟩ := h
  apply lucas_primality c.number c.root
  · exact (cast_pow_eq_one_iff hnumber _ _).mpr hpower
  · intro q hq hdvd
    rw [← hprod] at hdvd
    obtain ⟨r, hr, hqr⟩ := (Prime.dvd_prod_iff hq.prime).mp hdvd
    have heq : q = r := (Nat.prime_dvd_prime_iff_eq hq (hknown r (hfactors r hr))).mp hqr
    rw [heq, ne_eq, cast_pow_eq_one_iff hnumber]
    exact horder r hr

theorem prime_of_checkAll {known : List Nat} {cs : List Certificate}
    (hknown : ∀ q ∈ known, q.Prime) (h : checkAll known cs = true) : ∀ c ∈ cs, c.number.Prime := by
  induction cs generalizing known with
  | nil => nofun
  | cons c cs ih =>
    simp only [checkAll, Bool.and_eq_true] at h
    have hc := prime_of_check hknown h.1
    have hmore : ∀ q ∈ c.number :: known, q.Prime := List.forall_mem_cons.mpr ⟨hc, hknown⟩
    exact List.forall_mem_cons.mpr ⟨hc, ih hmore h.2⟩

end Certificate

end DeniableHandshake
