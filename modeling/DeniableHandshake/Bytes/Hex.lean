import DeniableHandshake.Bytes.Basic

/-!
# Lower-case hexadecimal text

Short displays of keys and proofs show the first eight bytes; codes on the wire are written with
a fixed number of digits after `0x`.
-/
namespace DeniableHandshake.Hex

def digit (n : Nat) : Char :=
  if n % 16 < 10 then Char.ofNat ('0'.toNat + n % 16) else Char.ofNat ('a'.toNat + (n % 16 - 10))

def digits : Nat → Nat → List Char
  | 0, _ => []
  | w + 1, n => digits w (n / 16) ++ [digit n]

def code (w n : Nat) : String := "0x" ++ String.ofList (digits w n)

def ofBytes (b : Bytes) : String := String.ofList (b.flatMap fun d => digits 2 d.toNat)

/-- The first eight bytes of a value whose remaining bytes are not shown. -/
def abridged (label : String) (b : Bytes) : String := label ++ "(" ++ ofBytes (b.take 8) ++ "..)"

end DeniableHandshake.Hex
