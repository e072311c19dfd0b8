import DeniableHandshake.Arithmetic.ModularPower

/-!
# The 3072-bit MODP group

The prime `p` is safe: `p = 2 q + 1`. The number 2 is a square modulo `p` and generates the
subgroup of order `q`.
-/
namespace DeniableHandshake.Modp3072

/-- The prime in sixteen digits to base `2 ^ 192`, most significant first. -/
def primeDigits : List Nat := [
  0xFFFFFFFFFFFFFFFFC90FDAA22168C234C4C6628B80DC1CD1,
  0x29024E088A67CC74020BBEA63B139B22514A08798E3404DD,
  0xEF9519B3CD3A431B302B0A6DF25F14374FE1356D6D51C245,
  0xE485B576625E7EC6F44C42E9A637ED6B0BFF5CB6F406B7ED,
  0xEE386BFB5A899FA5AE9F24117C4B1FE649286651ECE45B3D,
  0xC2007CB8A163BF0598DA48361C55D39A69163FA8FD24CF5F,
  0x83655D23DCA3AD961C62F356208552BB9ED529077096966D,
  0x670C354E4ABC9804F1746C08CA18217C32905E462E36CE3B,
  0xE39E772C180E86039B2783A2EC07A28FB5C55DF06F4C52C9,
  0xDE2BCBF6955817183995497CEA956AE515D2261898FA0510,
  0x15728E5A8AAAC42DAD33170D04507A33A85521ABDF1CBA64,
  0xECFB850458DBEF0A8AEA71575D060C7DB3970F85A6E1E4C7,
  0xABF5AE8CDB0933D71E8C94E04A25619DCEE3D2261AD2EE6B,
  0xF12FFA06D98A0864D87602733EC86A64521F2B18177B200C,
  0xBBE117577A615D6C770988C0BAD946E208E24FA074E5AB31,
  0x43DB5BFCE0FD108E4B82D120A93AD2CAFFFFFFFFFFFFFFFF]

def prime : Nat := primeDigits.foldl (fun n d => (n <<< 192) + d) 0

def order : Nat := (prime - 1) / 2

def generator : Nat := 2

def power (b e : Nat) : Nat := modPow b e prime

end DeniableHandshake.Modp3072
