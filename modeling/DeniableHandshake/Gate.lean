import DeniableHandshake.Curve448.Point
import DeniableHandshake.Modp3072.Value
import DeniableHandshake.Profile.Signature

/-!
# The gate for received values

Ephemeral values and a profile from a peer are taken only if every check passes. All checks are
made, and the verdict lists the ones that failed in a fixed order.
-/
namespace DeniableHandshake.Gate

inductive Failure
  | invalidPoint
  | invalidGroupValue
  | badSignature
  | expired (expires now : UInt64)
  | rejectedVersions
  deriving DecidableEq

def Failure.message : Failure → String
  | invalidPoint => "received curve point is not on curve448"
  | invalidGroupValue => "received finite-field value is not a subgroup member"
  | badSignature => "profile signature does not verify"
  | expired expires now => s!"profile expired at {expires.toNat} (now {now.toNat})"
  | rejectedVersions => "profile advertises unsupported versions"

inductive Verdict
  | accept
  | reject (failures : List Failure)
  deriving DecidableEq

def Verdict.isAccept : Verdict → Bool
  | accept => true
  | reject _ => false

def Verdict.failures : Verdict → List Failure
  | accept => []
  | reject failures => failures

/-- Each check, passed or not, with the failure that it reports. -/
def checks (point : Curve448.Point) (value : Modp3072.Value) (profile : Profile) (now : UInt64) :
    List (Bool × Failure) :=
  [(point.isValid, .invalidPoint),
    (value.isValid, .invalidGroupValue),
    (profile.verifies, .badSignature),
    (!profile.isExpired now, .expired profile.expires now),
    (profile.versionsAccepted, .rejectedVersions)]

def check (point : Curve448.Point) (value : Modp3072.Value) (profile : Profile) (now : UInt64) :
    Verdict :=
  match ((checks point value profile now).filter (!·.1)).map (·.2) with
  | [] => .accept
  | failures => .reject failures

def passes (point : Curve448.Point) (value : Modp3072.Value) (profile : Profile) (now : UInt64) :
    Bool :=
  (check point value profile now).isAccept

end DeniableHandshake.Gate
