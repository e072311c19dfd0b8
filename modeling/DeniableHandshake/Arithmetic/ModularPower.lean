/-!
# Powers modulo a number

Repeated squaring on reduced residues.
-/
namespace DeniableHandshake

def modPow (b e m : Nat) : Nat :=
  if e = 0 then 1 % m
  else
    let h := modPow (b * b % m) (e / 2) m
    if e % 2 = 1 then b * h % m else h
termination_by e

theorem modPow_zero (b m : Nat) : modPow b 0 m = 1 % m := by rw [modPow, if_pos rfl]

end DeniableHandshake
