import DeniableHandshake.Arithmetic.ModularPower
import DeniableHandshake.Bytes.Basic
import DeniableHandshake.Bytes.Endian
import DeniableHandshake.Bytes.Hex
import DeniableHandshake.Curve448.Keypair
import DeniableHandshake.Curve448.Ladder
import DeniableHandshake.Curve448.Point
import DeniableHandshake.Entropy
import DeniableHandshake.Gate
import DeniableHandshake.Hash.Keccak
import DeniableHandshake.Hash.Sha512
import DeniableHandshake.Hash.Shake256
import DeniableHandshake.KeyError
import DeniableHandshake.KeySchedule.Derivation
import DeniableHandshake.KeySchedule.Manager
import DeniableHandshake.KeySchedule.Run
import DeniableHandshake.Message.Basic
import DeniableHandshake.Message.Header
import DeniableHandshake.Message.Kind
import DeniableHandshake.Message.Wire
import DeniableHandshake.Modp3072.Group
import DeniableHandshake.Modp3072.Keypair
import DeniableHandshake.Modp3072.Value
import DeniableHandshake.Profile.Basic
import DeniableHandshake.Profile.Signature
import DeniableHandshake.Profile.Wire
import DeniableHandshake.Proofs.Message.Canonical
import DeniableHandshake.Proofs.Message.Dispatch
import DeniableHandshake.Proofs.Message.Header
import DeniableHandshake.Proofs.Message.Layout
import DeniableHandshake.Proofs.Message.RoundTrip
import DeniableHandshake.Proofs.Message.Truncation
import DeniableHandshake.Proofs.Profile.Layout
import DeniableHandshake.Proofs.Wire.Law
import DeniableHandshake.Proofs.Wire.Primitive
import DeniableHandshake.Proofs.Wire.SelfDelimiting
import DeniableHandshake.Proofs.Wire.Whole
import DeniableHandshake.Receive
import DeniableHandshake.RingProof
import DeniableHandshake.Signature.Ed25519
import DeniableHandshake.Signature.Edwards25519
import DeniableHandshake.Wire.Cursor
import DeniableHandshake.Wire.Error
import DeniableHandshake.Wire.Field
import DeniableHandshake.Wire.FieldType
import DeniableHandshake.Wire.Primitive
import DeniableHandshake.Proofs.KeySchedule.Operations
import DeniableHandshake.Proofs.KeySchedule.ClosedForm
import DeniableHandshake.Proofs.Arithmetic.ModularPower
import DeniableHandshake.Proofs.KeySchedule.Atomicity
import DeniableHandshake.Proofs.Message.Precedence
import DeniableHandshake.Proofs.Profile.Signed
import DeniableHandshake.Proofs.Curve448.Keypair
import DeniableHandshake.Proofs.Modp3072.Keypair
import DeniableHandshake.Proofs.Arithmetic.Primality
import DeniableHandshake.Proofs.Curve448.Field
import DeniableHandshake.Proofs.Curve448.Montgomery
import DeniableHandshake.Proofs.Curve448.Ladder
import DeniableHandshake.Proofs.KeySchedule.Exchange
import DeniableHandshake.Proofs.KeySchedule.SharedHistory
import DeniableHandshake.Proofs.KeySchedule.Rounds
import DeniableHandshake.Proofs.Signature.EdwardsGroup
import DeniableHandshake.Proofs.Signature.Field
import DeniableHandshake.Proofs.Signature.Edwards25519
import DeniableHandshake.Proofs.Signature.Encoding
import DeniableHandshake.Proofs.KeySchedule.Binding
import DeniableHandshake.Proofs.KeySchedule.Reuse
import DeniableHandshake.Proofs.KeySchedule.AcceptedKeys
import DeniableHandshake.Proofs.KeySchedule.GeneratedKeys
import DeniableHandshake.Proofs.KeySchedule.Placeholder
import DeniableHandshake.Proofs.KeySchedule.ExchangeHistory
import DeniableHandshake.Proofs.Modp3072.Membership
import DeniableHandshake.Proofs.Modp3072.Agreement
import DeniableHandshake.Proofs.Curve448.Membership
import DeniableHandshake.Proofs.Curve448.SmallOrder
import DeniableHandshake.Proofs.Verdict
import DeniableHandshake.Proofs.Wire.Cursor
import DeniableHandshake.Proofs.Wire.Sequence
import DeniableHandshake.Proofs.Modp3072.Value
import DeniableHandshake.Proofs.Wire.Integer
import DeniableHandshake.Proofs.Message.Size
import DeniableHandshake.Proofs.Message.Siblings
import DeniableHandshake.Proofs.Clearing
import DeniableHandshake.Proofs.KeySchedule.Purposes
