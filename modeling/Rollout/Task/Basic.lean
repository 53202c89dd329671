import Rollout.Task.Id

/-! Tasks: what is asked of them, what is launched, and what the cluster says about them. -/

namespace Rollout

/-- When a task has done its work: while it stays up, or once it has ended well. -/
inductive Goal where
  | running
  | finished
  deriving DecidableEq, Repr, Inhabited

namespace Goal

def initial : Goal := .running

def label : Goal → String
  | .running => "RUNNING"
  | .finished => "FINISHED"

end Goal

structure ReadinessCheck where
  command : String
  intervalSecs : UInt64
  timeoutSecs : UInt64
  deriving DecidableEq, Repr

namespace ReadinessCheck

def defaultInterval : UInt64 := 5

def defaultTimeout : UInt64 := 10

end ReadinessCheck

structure TaskSpec where
  name : String
  goal : Goal
  readinessCheck : Option ReadinessCheck
  deriving DecidableEq, Repr

structure TaskDescriptor where
  name : String
  taskId : TaskId
  goal : Goal
  readinessCheck : Option ReadinessCheck
  deriving DecidableEq, Repr

namespace TaskDescriptor

def display (task : TaskDescriptor) : String :=
  task.name ++ "(" ++ task.taskId ++ ")"

end TaskDescriptor

inductive TaskState where
  | error
  | failed
  | killed
  | killing
  | lost
  | staging
  | starting
  | running
  | finished
  | dropped
  | unreachable
  | gone
  | unknown
  deriving DecidableEq, Repr

namespace TaskState

def all : List TaskState :=
  [.error, .failed, .killed, .killing, .lost, .staging, .starting, .running, .finished,
    .dropped, .unreachable, .gone, .unknown]

def label : TaskState → String
  | .error => "ERROR"
  | .failed => "FAILED"
  | .killed => "KILLED"
  | .killing => "KILLING"
  | .lost => "LOST"
  | .staging => "STAGING"
  | .starting => "STARTING"
  | .running => "RUNNING"
  | .finished => "FINISHED"
  | .dropped => "DROPPED"
  | .unreachable => "UNREACHABLE"
  | .gone => "GONE"
  | .unknown => "UNKNOWN"

def display (state : TaskState) : String :=
  "TASK_" ++ state.label

def isTerminal : TaskState → Bool
  | .error | .failed | .killed | .lost | .finished | .dropped | .gone => true
  | _ => false

end TaskState

structure TaskReport where
  taskId : TaskId
  state : TaskState
  readinessCheckPassed : Bool
  message : Option String
  deriving DecidableEq, Repr

namespace TaskReport

def new (taskId : TaskId) (state : TaskState) : TaskReport :=
  ⟨taskId, state, false, none⟩

def withReadinessPassed (report : TaskReport) : TaskReport :=
  { report with readinessCheckPassed := true }

def withMessage (report : TaskReport) (message : String) : TaskReport :=
  { report with message := some message }

end TaskReport

/-- A task without a readiness check is ready as soon as it runs. -/
def TaskDescriptor.isReady (task : TaskDescriptor) (report : TaskReport) : Bool :=
  task.readinessCheck.isNone || report.readinessCheckPassed

end Rollout
