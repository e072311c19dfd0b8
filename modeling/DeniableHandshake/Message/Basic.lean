import DeniableHandshake.Curve448.Point
import DeniableHandshake.Message.Kind
import DeniableHandshake.Modp3072.Value
import DeniableHandshake.Profile.Basic
import DeniableHandshake.RingProof

/-!
# Handshake messages

Every kind but one carries an offer: the sender's profile and ephemeral public values. The two
authenticating replies add a ring proof, the non-interactive one also the tag of an authenticated
first payload, which is optional. The last interactive message is a ring proof alone.
-/
namespace DeniableHandshake

structure Offer where
  profile : Profile
  point : Curve448.Point
  value : Modp3072.Value
  deriving DecidableEq

namespace Offer

def fresh (profile : Profile) : Offer := ⟨profile, .zero, .zero⟩

def destroy (o : Offer) : Offer :=
  { o with profile := o.profile.destroy, point := .zero, value := o.value.clear }

@[simp] theorem destroy_eq_fresh (o : Offer) : o.destroy = fresh .empty := by
  rw [destroy, Profile.destroy_eq_empty, Modp3072.Value.clear_eq_zero, fresh]

end Offer

abbrev nonceSize : Nat := 24

abbrev authTagSize : Nat := 64

structure Payload where
  ciphertext : Bytes
  nonce : Block nonceSize
  deriving DecidableEq

namespace Payload

def empty : Payload := ⟨[], .zero nonceSize⟩

def zeroize (p : Payload) : Payload :=
  { p with ciphertext := p.ciphertext.zeroize, nonce := p.nonce.zeroize }

@[simp] theorem zeroize_eq_empty (p : Payload) : p.zeroize = empty := by
  rw [zeroize, Bytes.zeroize, Block.zeroize_eq_zero, empty]

end Payload

structure Reply where
  offer : Offer
  proof : RingProof
  deriving DecidableEq

structure SealedReply where
  reply : Reply
  payload : Option Payload
  authTag : Block authTagSize
  deriving DecidableEq

namespace Reply

def fresh (profile : Profile) : Reply := ⟨.fresh profile, .zero⟩

def destroy (r : Reply) : Reply := { r with offer := r.offer.destroy, proof := .zero }

@[simp] theorem destroy_eq_fresh (r : Reply) : r.destroy = fresh .empty := by
  rw [destroy, Offer.destroy_eq_fresh, fresh]

end Reply

namespace SealedReply

def fresh (profile : Profile) : SealedReply := ⟨.fresh profile, none, .zero authTagSize⟩

/-- What a reply lets go of when it is cleared, and the reply that is left. The payload is taken out
and overwritten before it is let go. -/
def release (r : SealedReply) : Option Payload × SealedReply :=
  (r.payload.map (·.zeroize),
    { r with reply := r.reply.destroy, payload := none, authTag := r.authTag.zeroize })

def destroy (r : SealedReply) : SealedReply := r.release.2

theorem released_payload (r : SealedReply) : ∀ p ∈ r.release.1, p = .empty := by
  intro p hp
  obtain ⟨q, -, rfl⟩ := Option.map_eq_some_iff.mp hp
  exact q.zeroize_eq_empty

@[simp] theorem destroy_eq_fresh (r : SealedReply) : r.destroy = fresh .empty := by
  rw [destroy, release, Reply.destroy_eq_fresh, Block.zeroize_eq_zero, fresh]

end SealedReply

/-- What a message of a kind holds besides the tags. -/
def Body : Kind → Type
  | .identity => Offer
  | .authR => Reply
  | .authI => RingProof
  | .prekey => Offer
  | .nonInteractiveAuth => SealedReply

namespace Body

instance : (k : Kind) → DecidableEq (Body k)
  | .identity => inferInstanceAs (DecidableEq Offer)
  | .authR => inferInstanceAs (DecidableEq Reply)
  | .authI => inferInstanceAs (DecidableEq RingProof)
  | .prekey => inferInstanceAs (DecidableEq Offer)
  | .nonInteractiveAuth => inferInstanceAs (DecidableEq SealedReply)

/-- The body around a profile, all else cleared; a proof alone has no profile. -/
def fresh (profile : Profile) : (k : Kind) → Body k
  | .identity => Offer.fresh profile
  | .authR => Reply.fresh profile
  | .authI => RingProof.zero
  | .prekey => Offer.fresh profile
  | .nonInteractiveAuth => SealedReply.fresh profile

def destroy : {k : Kind} → Body k → Body k
  | .identity, b => Offer.destroy b
  | .authR, b => Reply.destroy b
  | .authI, _ => RingProof.zero
  | .prekey, b => Offer.destroy b
  | .nonInteractiveAuth, b => SealedReply.destroy b

theorem destroy_eq_fresh {k : Kind} (b : Body k) : b.destroy = fresh .empty k := by
  cases k with
  | identity => exact Offer.destroy_eq_fresh b
  | prekey => exact Offer.destroy_eq_fresh b
  | authI => rfl
  | authR => exact Reply.destroy_eq_fresh b
  | nonInteractiveAuth => exact SealedReply.destroy_eq_fresh b

def offer? : {k : Kind} → Body k → Option Offer
  | .identity, (b : Offer) => some b
  | .authR, (b : Reply) => some b.offer
  | .authI, _ => none
  | .prekey, (b : Offer) => some b
  | .nonInteractiveAuth, (b : SealedReply) => some b.reply.offer

def proof? : {k : Kind} → Body k → Option RingProof
  | .identity, _ => none
  | .authR, (b : Reply) => some b.proof
  | .authI, (b : RingProof) => some b
  | .prekey, _ => none
  | .nonInteractiveAuth, (b : SealedReply) => some b.reply.proof

def sealed? : {k : Kind} → Body k → Option SealedReply
  | .nonInteractiveAuth, (b : SealedReply) => some b
  | .identity, _ => none
  | .authR, _ => none
  | .authI, _ => none
  | .prekey, _ => none

/-! A sender fills a body in part by part, each part where the kind has it. -/

def modifyOffer (f : Offer → Offer) : {k : Kind} → Body k → Body k
  | .identity, b => f b
  | .authR, (b : Reply) => { b with offer := f b.offer : Reply }
  | .authI, b => b
  | .prekey, b => f b
  | .nonInteractiveAuth, (b : SealedReply) =>
    { b with reply := { b.reply with offer := f b.reply.offer } : SealedReply }

def setProof (p : RingProof) : {k : Kind} → Body k → Body k
  | .identity, b => b
  | .authR, (b : Reply) => { b with proof := p : Reply }
  | .authI, _ => p
  | .prekey, b => b
  | .nonInteractiveAuth, (b : SealedReply) =>
    { b with reply := { b.reply with proof := p } : SealedReply }

/-- Acts on the parts that only the sealed reply has. -/
def modifySeal (f : SealedReply → SealedReply) : {k : Kind} → Body k → Body k
  | .nonInteractiveAuth, b => f b
  | .identity, b => b
  | .authR, b => b
  | .authI, b => b
  | .prekey, b => b

section Parts

variable {k : Kind} (b : Body k)

@[simp] theorem offer?_modifyOffer (f : Offer → Offer) : (b.modifyOffer f).offer? = b.offer?.map f := by
  cases k with
  | _ => rfl

@[simp] theorem proof?_modifyOffer (f : Offer → Offer) : (b.modifyOffer f).proof? = b.proof? := by
  cases k with
  | _ => rfl

@[simp] theorem offer?_setProof (p : RingProof) : (b.setProof p).offer? = b.offer? := by
  cases k with
  | _ => rfl

@[simp] theorem proof?_setProof (p : RingProof) : (b.setProof p).proof? = b.proof?.map fun _ => p := by
  cases k with
  | _ => rfl

@[simp] theorem sealed?_modifySeal (f : SealedReply → SealedReply) :
    (b.modifySeal f).sealed? = b.sealed?.map f := by
  cases k with
  | _ => rfl

end Parts

end Body

/-- A message of kind `k`: the instance tags and a body. -/
structure Envelope (k : Kind) where
  sender : UInt32
  receiver : UInt32
  body : Body k
  deriving DecidableEq

namespace Envelope
variable {k : Kind}

def fresh (profile : Profile) (k : Kind) : Envelope k := ⟨0, 0, .fresh profile k⟩

/-- The tags stay, everything else is cleared. -/
def destroy (e : Envelope k) : Envelope k := { e with body := e.body.destroy }

end Envelope

structure Message where
  kind : Kind
  envelope : Envelope kind
  deriving DecidableEq

namespace Message

def sender (m : Message) : UInt32 := m.envelope.sender

def receiver (m : Message) : UInt32 := m.envelope.receiver

def offer? (m : Message) : Option Offer := m.envelope.body.offer?

end Message

end DeniableHandshake
