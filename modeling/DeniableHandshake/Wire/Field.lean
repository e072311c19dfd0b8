import DeniableHandshake.Bytes.Basic
import DeniableHandshake.Wire.Error

/-!
# Fields

A field knows how its values are written and how they are read. Writing appends to a buffer and
returns the number of bytes it appended; what was appended before a failure stays in the buffer.
Reading looks at the front of the input and returns a value with the number of bytes that it took.
-/
namespace DeniableHandshake

abbrev Writer := EStateM WireError Bytes

abbrev Reader (α : Type) := Bytes → Except WireError (α × Nat)

structure Field (α : Type) where
  write : α → Writer Nat
  read : Reader α

namespace Writer

def put (b : Bytes) : Writer Nat := fun buffer => .ok b.length (buffer ++ b)

end Writer

namespace Reader
variable {α β : Type}

/-- The next `n` bytes. -/
def take (field : String) (n : Nat) : Reader (Block n) := fun input =>
  if h : n ≤ input.length then .ok (⟨input.take n, List.length_take_of_le h⟩, n)
  else .error (.truncated field n input.length)

/-- A value that is given or refused without a look at the input. -/
def verdict (v : Except WireError α) : Reader α := fun _ => do
  let a ← v
  return (a, 0)

def result (a : α) : Reader α := verdict (.ok a)

/-- Goes on where the first reader ended, and counts what both of them took. -/
def andThen (r : Reader α) (g : α → Reader β) : Reader β := fun input => do
  let (a, m) ← r input
  let (b, n) ← g a (input.drop m)
  return (b, m + n)

end Reader

namespace Field
variable {α β : Type}

def block (name : String) (n : Nat) : Field (Block n) where
  write b := Writer.put b.toList
  read := Reader.take name n

def pair (f : Field α) (g : Field β) : Field (α × β) where
  write p := do
    let m ← f.write p.1
    let n ← g.write p.2
    return m + n
  read := f.read.andThen fun a => g.read.andThen fun b => .result (a, b)

/-- Values under another type, where not every value that is read need be accepted. -/
def refine (f : Field α) (accept : α → Except WireError β) (raw : β → α) : Field β where
  write b := f.write (raw b)
  read := f.read.andThen fun a => .verdict (accept a)

def iso (f : Field α) (of : α → β) (raw : β → α) : Field β := f.refine (fun a => .ok (of a)) raw

end Field

end DeniableHandshake
