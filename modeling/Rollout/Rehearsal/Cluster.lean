import Rollout.Plan.Basic

/-! A simulated cluster.  It reports on every launched task once: first that the task is staged,
and then that it does what it should; except that the first launch of some tasks fails. -/

namespace Rollout

/-- The full names of tasks whose next launch fails, and the ids reported so far. -/
structure Cluster where
  failing : List String
  reported : List TaskId
  deriving DecidableEq, Repr

namespace Cluster

def new (failing : List String) : Cluster :=
  ⟨failing, []⟩

def success (task : TaskDescriptor) : TaskReport :=
  match task.goal with
  | .running => (TaskReport.new task.taskId .running).withReadinessPassed
  | .finished => TaskReport.new task.taskId .finished

def failure (task : TaskDescriptor) : TaskReport :=
  (TaskReport.new task.taskId .failed).withMessage "simulated failure"

/-- Looks at one task.  Only a starting task counts as reported. -/
def observe (cluster : Cluster) (task : TrackedTask) : List TaskReport × Cluster :=
  if task.status = .starting ∧ ¬ cluster.reported.contains task.taskId then
    let seen := { cluster with reported := task.taskId :: cluster.reported }
    let staging := TaskReport.new task.taskId .staging
    if cluster.failing.contains task.descriptor.name then
      ([staging, failure task.descriptor],
        { seen with failing := seen.failing.filter (· != task.descriptor.name) })
    else ([staging, success task.descriptor], seen)
  else ([], cluster)

def observeAll (cluster : Cluster) : List TrackedTask → List TaskReport × Cluster
  | [] => ([], cluster)
  | task :: rest =>
      let (first, next) := cluster.observe task
      let (others, last) := next.observeAll rest
      (first ++ others, last)

def reports (cluster : Cluster) (arrangement : Arrangement) (plan : Plan Step) :
    List TaskReport × Cluster :=
  cluster.observeAll (plan.steps.flatMap (Step.trackedTasks arrangement))

end Cluster

end Rollout
