import DeniableHandshake.Profile.Basic
import DeniableHandshake.Wire.Primitive

/-!
# Profiles on the wire

The key type and the key, the versions, the expiry, the signature and the transitional signature.
A key of another type is refused before its bytes are read, and versions that are not text before
the fields after them.
-/
namespace DeniableHandshake.Field

def keyType : Field Unit :=
  u16.refine
    (fun t => if t = Profile.ed25519KeyType then .ok () else .error (.invalidKeyType t))
    (fun _ => Profile.ed25519KeyType)

def versions : Field String :=
  data.refine
    (fun b =>
      match ofUtf8? b with
      | some s => .ok s
      | none => .error .invalidVersions)
    utf8

def profile : Field Profile :=
  (keyType.pair <| (block "identity key" identityKeySize).pair <| versions.pair <| u64.pair <|
      (block "profile signature" signatureSize).pair data).iso
    (fun (_, key, versions, expires, signature, transitional) =>
      ⟨key, versions, expires, signature, transitional⟩)
    (fun p => ((), p.identityKey, p.versions, p.expires, p.signature, p.transitional))

end DeniableHandshake.Field
