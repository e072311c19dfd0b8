import DeniableHandshake.Bytes.Basic
import DeniableHandshake.KeyError

/-!
# Sources of randomness

A source is the list of its answers to the draws that are still to come. An answer is a failure
or a byte string, which is cut or filled up with zeros to the length that was asked for.
-/
namespace DeniableHandshake

abbrev Entropy := List (Except KeyError Bytes)

def Entropy.draw (n : Nat) : Entropy → Except KeyError (Block n × Entropy)
  | [] => .error (.entropy "exhausted")
  | .error e :: _ => .error e
  | .ok b :: rest => .ok (.fit n b, rest)

end DeniableHandshake
