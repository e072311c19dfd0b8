import DeniableHandshake.Arithmetic.ModularPower

/-!
# The Montgomery ladder on Curve448

Scalar multiplication on `v² = u³ + 156326 u² + u` modulo `2^448 - 2^224 - 1`, by the
`u`-coordinate alone. A step carries two projective coordinates `x / z` whose difference is the
input point: it doubles one and adds the other, the scalar bit says which.
-/
namespace DeniableHandshake.Curve448

def prime : Nat := (1 <<< 448) - (1 <<< 224) - 1

def coefficient : Nat := 156326

namespace Ladder

def add (a b : Nat) : Nat := (a + b) % prime

/-- For residues `a` and `b`. -/
def sub (a b : Nat) : Nat := (a + (prime - b)) % prime

def mul (a b : Nat) : Nat := a * b % prime

structure State where
  x₂ : Nat
  z₂ : Nat
  x₃ : Nat
  z₃ : Nat
  deriving DecidableEq

def start (u : Nat) : State := ⟨1, 0, u, 1⟩

def swapIf (bit : Bool) (s : State) : State :=
  if bit then ⟨s.x₃, s.z₃, s.x₂, s.z₂⟩ else s

/-- The first point doubled, and the sum of both, whose difference is `u`. -/
def doubleAndAdd (u : Nat) (s : State) : State :=
  let a := add s.x₂ s.z₂
  let b := sub s.x₂ s.z₂
  let aa := mul a a
  let bb := mul b b
  let e := sub aa bb
  let da := mul (sub s.x₃ s.z₃) a
  let cb := mul (add s.x₃ s.z₃) b
  let sum := add da cb
  let difference := sub da cb
  ⟨mul aa bb, mul e (add aa (mul ((coefficient - 2) / 4) e)), mul sum sum,
    mul u (mul difference difference)⟩

def step (u : Nat) (bit : Bool) (s : State) : State :=
  swapIf bit (doubleAndAdd u (swapIf bit s))

/-- The low `n` bits of `k`, highest first. -/
def climb (u k : Nat) : Nat → State → State
  | 0, s => s
  | n + 1, s => climb u k n (step u (k.testBit n) s)

end Ladder

/-- The `u`-coordinate of `k` times the point at `u`; the point at infinity counts as zero. -/
def ladder (k u : Nat) : Nat :=
  let s := Ladder.climb u k 448 (Ladder.start u)
  Ladder.mul s.x₂ (modPow s.z₂ (prime - 2) prime)

end DeniableHandshake.Curve448
