import DeniableHandshake.Arithmetic.ModularPower
import DeniableHandshake.Bytes.Endian

/-!
# The Edwards curve of Ed25519

Points of `-x² + y² = 1 + d x² y²` modulo `2^255 - 19` in extended coordinates: `x = X / Z`,
`y = Y / Z` and `T = X Y / Z`. The addition law has no exceptional cases, so it also doubles.
-/
namespace DeniableHandshake.Edwards25519

def prime : Nat := (1 <<< 255) - 19

/-- The order of the subgroup that the base point generates. -/
def order : Nat := (1 <<< 252) + 27742317777372353535851937790883648493

def d : Nat := 37095705934669439343138083508754565189542113879843219016388785533085940283555

def sqrtMinusOne : Nat := modPow 2 ((prime - 1) / 4) prime

def add (a b : Nat) : Nat := (a + b) % prime

def sub (a b : Nat) : Nat := (a + (prime - b)) % prime

def mul (a b : Nat) : Nat := a * b % prime

def inv (a : Nat) : Nat := modPow a (prime - 2) prime

structure Point where
  X : Nat
  Y : Nat
  Z : Nat
  T : Nat

namespace Point

def ofAffine (x y : Nat) : Point := ⟨x, y, 1, mul x y⟩

def neutral : Point := ofAffine 0 1

def base : Point := ofAffine
  15112221349535400772501151409588531511454012693041857206046113283949847762202
  46316835694926478169428394003475163141307993866256225615783033603165251855960

def plus (P Q : Point) : Point :=
  let a := mul (sub P.Y P.X) (sub Q.Y Q.X)
  let b := mul (add P.Y P.X) (add Q.Y Q.X)
  let c := mul (mul P.T Q.T) (mul 2 d)
  let e := mul (mul 2 P.Z) Q.Z
  ⟨mul (sub b a) (sub e c), mul (add e c) (add b a), mul (sub e c) (add e c),
    mul (sub b a) (add b a)⟩

def neg (P : Point) : Point := ⟨sub 0 P.X, P.Y, P.Z, sub 0 P.T⟩

def times (n : Nat) (P : Point) : Point :=
  if n = 0 then neutral
  else
    let h := times (n / 2) (P.plus P)
    if n % 2 = 1 then h.plus P else h
termination_by n

/-- The `y` coordinate with the parity of `x` in the top bit. -/
def compress (P : Point) : Block 32 :=
  let z := inv P.Z
  .littleEndian 32 (mul P.Y z + (mul P.X z % 2) <<< 255)

/-- A square root of `u / v` if there is one. -/
def sqrtRatio (u v : Nat) : Option Nat :=
  let v3 := mul (mul v v) v
  let r := mul (mul u v3) (modPow (mul u (mul (mul v3 v3) v)) ((prime - 5) / 8) prime)
  let w := mul v (mul r r)
  if w = u then some r
  else if w = sub 0 u then some (mul r sqrtMinusOne)
  else none

/-- The point with the encoded `y`, which is reduced first, and with an `x` of the encoded parity;
for `x = 0` either parity is taken. -/
def decompress (b : Block 32) : Option Point :=
  let n := ofLittleEndian b.toList
  let y := n % (1 <<< 255) % prime
  let yy := mul y y
  (sqrtRatio (sub yy 1) (add (mul d yy) 1)).map fun x =>
    ofAffine (if x % 2 = n >>> 255 then x else sub 0 x) y

end Point

end DeniableHandshake.Edwards25519
