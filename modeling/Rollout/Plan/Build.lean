import Rollout.Service.Basic

/-! The deployment plan of a service file: a phase for each pod type, a step for each instance.
Faults inside a pod are attached to its steps, so that the other pods can still be deployed; only
a file without pods and a repeated pod type have no plan. -/

namespace Rollout

inductive BuildError where
  | noPods (service : String)
  | duplicateElement (parent name : String)
  deriving DecidableEq, Repr

namespace BuildError

def message : BuildError → String
  | .noPods service => "service " ++ service ++ " defines no pods"
  | .duplicateElement parent name => "duplicate element " ++ name ++ " in " ++ parent

def qualifiedMessage (error : BuildError) : String :=
  "plan error: " ++ error.message

end BuildError

namespace PodInstance

def stepName (pod : PodInstance) : String :=
  pod.name ++ ":[" ++ ",".intercalate (pod.tasks.map (·.name)) ++ "]"

end PodInstance

namespace PodSection

def noTasksText (podType : String) : String :=
  "pod '" ++ podType ++ "' defines no tasks"

def repeatedTaskText (podType task : String) : String :=
  "pod '" ++ podType ++ "' defines task '" ++ task ++ "' more than once"

def idleCheckText (podType task : String) : String :=
  "task '" ++ task ++ "' in pod '" ++ podType ++
    "' has a readiness check but goal state " ++ Goal.finished.label

/-- The faults of tasks, given the names of the tasks before them.  A name that occurred
before is a fault, and so is a readiness check on a task that is to finish: such a
task is done when it ends, whatever the check says. -/
def taskFaults (podType : String) (seen : List String) : List TaskSpec → List String
  | [] => []
  | task :: rest =>
      (if seen.contains task.name then [repeatedTaskText podType task.name] else []) ++
        (if task.goal = .finished ∧ task.readinessCheck.isSome then
          [idleCheckText podType task.name] else []) ++
        taskFaults podType (task.name :: seen) rest

def faults (pod : PodSection) : List String :=
  (if pod.tasks.isEmpty then [noTasksText pod.podType] else []) ++
    taskFaults pod.podType [] pod.taskSpecs

def step (pod : PodSection) (podInstance : PodInstance) : Step :=
  let errors := pod.faults
  let requirement := Requirement.ofInstance podInstance
  let status := if errors.isEmpty then Status.pending else Status.error
  Step.new podInstance.stepName status
    { requirement with environment := pod.environment.getD .empty } errors

def phase (pod : PodSection) : Phase Step :=
  Phase.new pod.podType (pod.instances.map pod.step) (pod.strategy.getD .initial)

def firstRepeated? (seen : List String) : List PodSection → Option String
  | [] => none
  | pod :: rest =>
      if seen.contains pod.podType then some pod.podType
      else firstRepeated? (pod.podType :: seen) rest

end PodSection

namespace Plan

def deployName : String := "deploy"

def ofService (file : ServiceFile) : Except BuildError (Plan Step) :=
  if file.pods.isEmpty then .error (.noPods file.service.name)
  else
    match PodSection.firstRepeated? [] file.pods with
    | some podType => .error (.duplicateElement deployName podType)
    | none => .ok (Plan.new deployName (file.pods.map PodSection.phase) file.planStrategy)

end Plan

end Rollout
