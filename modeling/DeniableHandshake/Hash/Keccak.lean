/-!
# The Keccak permutation on 1600 bits

The state is twenty-five 64-bit lanes; the lane in column `x` and row `y` has index `x + 5 * y`.
Each of the twenty-four rounds mixes columns, rotates and moves lanes, combines neighbours in a
row and adds a round constant to the first lane.
-/
namespace DeniableHandshake.Keccak

abbrev State := Vector UInt64 25

def State.zero : State := Vector.replicate 25 0

/-- Coordinates are taken modulo five. -/
def State.lane (s : State) (x y : Nat) : UInt64 := s.get ⟨x % 5 + 5 * (y % 5), by omega⟩

def rotateLeft (w k : UInt64) : UInt64 := (w <<< k) ||| (w >>> (64 - k))

def columnParity (s : State) : Vector UInt64 5 :=
  Vector.ofFn fun x => s.lane x 0 ^^^ s.lane x 1 ^^^ s.lane x 2 ^^^ s.lane x 3 ^^^ s.lane x 4

def mixColumns (s : State) : State :=
  let c := columnParity s
  Vector.ofFn fun i =>
    s[i] ^^^ c.get ⟨(i.val + 4) % 5, by omega⟩ ^^^ rotateLeft (c.get ⟨(i.val + 1) % 5, by omega⟩) 1

def rotations : Vector UInt64 25 := #v[
  0, 1, 62, 28, 27,
  36, 44, 6, 55, 20,
  3, 10, 43, 25, 39,
  41, 45, 15, 21, 8,
  18, 2, 61, 56, 14]

/-- The lane that arrives in column `x` and row `y` comes from column `x + 3 * y` and row `x`. -/
def moveLanes (s : State) : State :=
  Vector.ofFn fun i =>
    let x := i.val % 5
    let y := i.val / 5
    rotateLeft (s.lane (x + 3 * y) x) (State.lane rotations (x + 3 * y) x)

def combineRows (s : State) : State :=
  Vector.ofFn fun i =>
    let x := i.val % 5
    let y := i.val / 5
    s[i] ^^^ (~~~ s.lane (x + 1) y &&& s.lane (x + 2) y)

def round (s : State) (constant : UInt64) : State :=
  let t := combineRows (moveLanes (mixColumns s))
  t.set 0 (t[0] ^^^ constant)

def roundConstants : List UInt64 := [
  0x0000000000000001, 0x0000000000008082, 0x800000000000808A, 0x8000000080008000,
  0x000000000000808B, 0x0000000080000001, 0x8000000080008081, 0x8000000000008009,
  0x000000000000008A, 0x0000000000000088, 0x0000000080008009, 0x000000008000000A,
  0x000000008000808B, 0x800000000000008B, 0x8000000000008089, 0x8000000000008003,
  0x8000000000008002, 0x8000000000000080, 0x000000000000800A, 0x800000008000000A,
  0x8000000080008081, 0x8000000000008080, 0x0000000080000001, 0x8000000080008008]

def permute (s : State) : State := roundConstants.foldl round s

end DeniableHandshake.Keccak
