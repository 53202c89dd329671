import Rollout.Plan.Basic

/-! Milestones: leaves whose status is set by hand.  They stand for work that is done outside the
engine, and show selection and aggregation without tasks. -/

namespace Rollout

structure Milestone where
  name : String
  status : Status
  errors : List String
  deriving DecidableEq, Repr

namespace Milestone

def withStatus (milestone : Milestone) (status : Status) : Milestone :=
  { milestone with status }

/-- A restart forgets what was reached, also for a milestone with errors. -/
def restart (milestone : Milestone) : Milestone :=
  milestone.withStatus .pending

instance : Leaf Milestone where
  name := Milestone.name
  status := Milestone.status
  errors := Milestone.errors
  restart := restart
  trackedTasks := fun _ _ => []

end Milestone

end Rollout
