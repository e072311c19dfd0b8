import DeniableHandshake.Message.Basic
import DeniableHandshake.Message.Header
import DeniableHandshake.Profile.Wire
import DeniableHandshake.Wire.Cursor

/-!
# Messages on the wire

A message is its header, the parts of its body one after another, and nothing else. Whether a
payload is present is told by what is left after the ring proof: more than an authentication tag.
-/
namespace DeniableHandshake

namespace Field

def offer : Field Offer :=
  (profile.pair <| curvePoint.pair groupValue).iso
    (fun (profile, point, value) => ⟨profile, point, value⟩)
    (fun o => (o.profile, o.point, o.value))

def reply : Field Reply :=
  (offer.pair ringProof).iso (fun (offer, proof) => ⟨offer, proof⟩) (fun r => (r.offer, r.proof))

def payload : Field Payload :=
  (data.pair <| block "nonce" nonceSize).iso (fun (ciphertext, nonce) => ⟨ciphertext, nonce⟩)
    (fun p => (p.ciphertext, p.nonce))

def optionalPayload : Field (Option Payload) where
  write
    | none => pure 0
    | some p => payload.write p
  read input :=
    if authTagSize < input.length then do
      let (p, n) ← payload.read input
      return (some p, n)
    else .ok (none, 0)

def sealedReply : Field SealedReply :=
  (reply.pair <| optionalPayload.pair <| block "auth tag" authTagSize).iso
    (fun (reply, payload, authTag) => ⟨reply, payload, authTag⟩)
    (fun r => (r.reply, r.payload, r.authTag))

def body : (k : Kind) → Field (Body k)
  | .identity => offer
  | .authR => reply
  | .authI => ringProof
  | .prekey => offer
  | .nonInteractiveAuth => sealedReply

def envelope (k : Kind) : Field (Envelope k) :=
  ((tags k).pair (body k)).iso (fun (tags, body) => ⟨tags.1, tags.2, body⟩)
    (fun e => ((e.sender, e.receiver), e.body))

end Field

/-- The length of a message that is the offer alone, known before it is written. -/
def Offer.messageSize (o : Offer) : Nat :=
  Header.size + o.profile.size + Curve448.pointSize + Field.lengthSize + o.value.magnitude.length

/-- The length of a message that is a ring proof alone. -/
def RingProof.messageSize : Nat := Header.size + ringProofSize

/-- Runs a writer on an empty buffer and takes what it wrote. -/
def Writer.toBytes {α : Type} (w : Writer α) : Except WireError Bytes :=
  match w [] with
  | .ok _ buffer => .ok buffer
  | .error e _ => .error e

namespace Envelope
variable {k : Kind}

def encode (e : Envelope k) : Writer Nat := (Field.envelope k).write e

def toBytes (e : Envelope k) : Except WireError Bytes := e.encode.toBytes

def ofBytes (k : Kind) (input : Bytes) : Except WireError (Envelope k) :=
  Reader.whole (Field.envelope k).read input

end Envelope

namespace Message

def encode (m : Message) : Writer Nat := m.envelope.encode

def toBytes (m : Message) : Except WireError Bytes := m.envelope.toBytes

/-- The message of the kind that the header names. -/
def ofBytes (input : Bytes) : Except WireError Message := do
  let (header, _) ← Field.header.read input
  match header.kind? with
  | none => .error (.unknownKind header.kindByte)
  | some k => return ⟨k, ← Envelope.ofBytes k input⟩

end Message

end DeniableHandshake
