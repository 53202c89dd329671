import Rollout.Plan.Basic

/-! Routing of task reports.  A report carries a task id; the task name inside the id decides
which steps it concerns, and each of those decides what to do with it. -/

namespace Rollout

namespace Step

def owns (step : Step) (fullName : String) : Bool :=
  step.requirement.podInstance.owns fullName

def receive (fullName : String) (report : TaskReport) (step : Step) : Step :=
  if step.owns fullName then step.update report else step

end Step

namespace Plan

def owners (plan : Plan Step) (id : TaskId) : Except LookupError (List Step) := do
  let fullName ← id.resolve
  pure (plan.steps.filter (·.owns fullName))

/-- How many steps a report reaches; a report with a malformed id reaches none. -/
def reach (plan : Plan Step) (report : TaskReport) : Nat :=
  match plan.owners report.taskId with
  | .error _ => 0
  | .ok steps => steps.length

def route (plan : Plan Step) (report : TaskReport) : Plan Step :=
  match report.taskId.resolve with
  | .error _ => plan
  | .ok fullName => plan.mapSteps (Step.receive fullName report)

def routeAll (plan : Plan Step) (reports : List TaskReport) : Plan Step :=
  reports.foldl route plan

end Plan

end Rollout
