import DeniableHandshake.Gate
import DeniableHandshake.KeySchedule.Run
import DeniableHandshake.Message.Basic

/-!
# Receiving an offer

An offer reaches the key manager only after the gate has accepted it. A rejected offer leaves the
manager as it was, and the verdict says which checks failed.
-/
namespace DeniableHandshake

def Offer.check (o : Offer) (now : UInt64) : Gate.Verdict :=
  Gate.check o.point o.value o.profile now

/-- Records the peer's values if the gate accepts the offer. -/
def KeyManager.receive {σ : Type} (o : Offer) (now : UInt64) : Session σ Gate.Verdict := do
  let verdict := o.check now
  if verdict.isAccept then setTheirKeys o.point o.value
  return verdict

end DeniableHandshake
