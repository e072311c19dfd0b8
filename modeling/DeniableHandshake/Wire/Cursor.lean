import DeniableHandshake.Wire.Field

/-!
# Cursors

A cursor is an input and the number of bytes read from it. A read that fails does not move it.
-/
namespace DeniableHandshake

structure Cursor where
  input : Bytes
  position : Nat
  deriving DecidableEq

namespace Cursor
variable {α : Type} {r : Reader α} {c : Cursor} {a : α} {n : Nat}

def start (input : Bytes) : Cursor := ⟨input, 0⟩

def remaining (c : Cursor) : Bytes := c.input.drop c.position

def remainingLength (c : Cursor) : Nat := c.input.length - c.position

theorem length_remaining (c : Cursor) : c.remaining.length = c.remainingLength := List.length_drop

/-- Moves by the count of the reader, whatever it is. -/
def read (r : Reader α) (c : Cursor) : Except WireError α × Cursor :=
  match r c.remaining with
  | .ok (a, n) => (.ok a, { c with position := c.position + n })
  | .error e => (.error e, c)

theorem read_of_error {e : WireError} (h : r c.remaining = .error e) : c.read r = (.error e, c) := by
  rw [read, h]

theorem read_of_ok (h : r c.remaining = .ok (a, n)) : c.read r = (.ok a, ⟨c.input, c.position + n⟩) := by
  rw [read, h]

/-- What is asserted of a reader that gives a value: it counted no more bytes than there are left. -/
def asserts (r : Reader α) (c : Cursor) : Bool :=
  match r c.remaining with
  | .ok (_, n) => decide (n ≤ c.remainingLength)
  | .error _ => true

/-- Nothing may be left. -/
def finish (c : Cursor) : Except WireError Unit :=
  if c.remainingLength = 0 then .ok () else .error (.trailingBytes c.remainingLength)

end Cursor

/-- The value in an input that holds nothing else. -/
def Reader.whole {α : Type} (r : Reader α) (input : Bytes) : Except WireError α := do
  let (result, c) := (Cursor.start input).read r
  let a ← result
  c.finish
  return a

end DeniableHandshake
