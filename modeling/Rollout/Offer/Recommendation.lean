import Rollout.Pod

/-! What the offer evaluation recommends for a requirement. -/

namespace Rollout

inductive Recommendation where
  | launch (task : TaskDescriptor)
  | reserve (resourceId podInstance : String)
  | unreserve (resourceId : String)
  deriving DecidableEq, Repr

namespace Recommendation

def operation : Recommendation → String
  | .launch _ => "LAUNCH_GROUP"
  | .reserve _ _ => "RESERVE"
  | .unreserve _ => "UNRESERVE"

def launched? : Recommendation → Option TaskDescriptor
  | .launch task => some task
  | _ => none

def launchesAny (recommendations : List Recommendation) : Bool :=
  recommendations.any fun recommendation => recommendation.launched?.isSome

end Recommendation

end Rollout
