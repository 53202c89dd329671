import Rollout.Environment
import Rollout.Task.Basic

/-! Pod instances, and the requirement that an instance puts to the offer evaluation. -/

namespace Rollout

structure PodInstance where
  podType : String
  index : UInt32
  tasks : List TaskSpec
  deriving DecidableEq, Repr

inductive LookupError where
  | malformedId (id : TaskId)
  | taskNotFound (podInstance task : String)
  deriving DecidableEq, Repr

namespace LookupError

def message : LookupError → String
  | .malformedId id => "invalid task id: " ++ id
  | .taskNotFound podInstance task =>
      "task " ++ task ++ " not found in pod instance " ++ podInstance

end LookupError

def TaskId.resolve (id : TaskId) : Except LookupError String :=
  match id.taskName? with
  | some name => .ok name
  | none => .error (.malformedId id)

namespace PodInstance

def name (pod : PodInstance) : String :=
  pod.podType ++ "-" ++ toString pod.index.toNat

def taskName (pod : PodInstance) (task : String) : String :=
  pod.name ++ "-" ++ task

/-- What follows the instance name and a dash in a full task name. -/
def shortName? (pod : PodInstance) (fullName : String) : Option String :=
  ((pod.name ++ "-").toList.isPrefixOf? fullName.toList).map String.ofList

def task? (pod : PodInstance) (task : String) : Option TaskSpec :=
  pod.tasks.find? fun spec => spec.name = task

def goalOf (pod : PodInstance) (fullName : String) : Except LookupError Goal :=
  match (pod.shortName? fullName).bind pod.task? with
  | some spec => .ok spec.goal
  | none => .error (.taskNotFound pod.name fullName)

def owns (pod : PodInstance) (fullName : String) : Bool :=
  pod.tasks.any fun spec => pod.taskName spec.name == fullName

end PodInstance

structure Requirement where
  podInstance : PodInstance
  tasksToLaunch : List String
  environment : Environment
  deriving DecidableEq, Repr

namespace Requirement

def ofInstance (pod : PodInstance) : Requirement :=
  ⟨pod, pod.tasks.map (·.name), .empty⟩

def name (requirement : Requirement) : String :=
  requirement.podInstance.name

def withEnvironment (requirement : Requirement) (overrides : Environment) : Requirement :=
  { requirement with environment := requirement.environment.merge overrides }

end Requirement

end Rollout
