import DeniableHandshake.Proofs.Signature.Encoding
import DeniableHandshake.Signature.Ed25519

/-!
# Signatures verify

Signing and verifying compute the same multiple of the base point, and they compare encodings, which
depend on the point alone.
-/
namespace DeniableHandshake.Ed25519

open Edwards25519

/-- A reduced scalar fits into 32 bytes. -/
theorem ofLittleEndian_scalar {s : Nat} (hs : s < order) :
    ofLittleEndian (Block.littleEndian 32 s).toList = s := by
  have hbound : order < 256 ^ 32 := by decide
  rw [Block.littleEndian, ofLittleEndian_toLittleEndian, Nat.mod_eq_of_lt (hs.trans hbound)]

theorem verify_append {key nonce : Block 32} {a : Point} {s : Nat} (message : Bytes)
    (hkey : Point.decompress key = some a) (hs : s < order) :
    verify key message (nonce.append (.littleEndian 32 s)) =
      (((Point.times s .base).plus (Point.times (challenge nonce key message) a.neg)).compress ==
        nonce) := by
  have hfront : (nonce.append (.littleEndian 32 s)).toList.take 32 = nonce.toList :=
    List.take_left' nonce.length_toList
  have hback : (nonce.append (.littleEndian 32 s)).toList.drop 32 =
      (Block.littleEndian 32 s).toList := List.drop_left' nonce.length_toList
  rw [verify, hfront, hback, Block.fit_toList, ofLittleEndian_scalar hs, hkey, Option.any_some]
  simp only [decide_eq_true hs, Bool.true_and]

/-- The challenge times the key is part of the response and is subtracted by the verifier. -/
theorem response_nsmul (r k a : Nat) :
    ((r + k * a) % order) • basePoint + k • -(a • basePoint) = r • basePoint := by
  rw [mod_order_nsmul_basePoint, add_nsmul, Nat.mul_comm, mul_nsmul, smul_neg, add_neg_cancel_right]

theorem verify_sign (seed : Block 32) (message : Bytes) :
    verify (publicKey seed) message (sign seed message) = true := by
  have hkey : publicKey seed = Point.encoding (secretScalar seed • basePoint) :=
    (isAt_base.times _).compress
  obtain ⟨a, hdecode, ha⟩ := Point.decompress_encoding (secretScalar seed • basePoint)
  rw [← hkey] at hdecode
  have hreduced (n : Nat) : n % order < order := Nat.mod_lt n (by decide)
  unfold sign
  extract_lets r nonce s
  have hpoint := (isAt_base.times s).plus (ha.neg.times (challenge nonce (publicKey seed) message))
  rw [response_nsmul] at hpoint
  rw [verify_append message hdecode (hreduced _), beq_iff_eq, hpoint.compress]
  exact (isAt_base.times r).compress.symm

end DeniableHandshake.Ed25519
