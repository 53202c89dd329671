import Rollout.Offer.Recommendation
import Rollout.Strategy

/-! A deployment step: one pod instance on its way from an offer to readiness.

Two inputs meet in a step.  The outcome of an offer replaces the tracked tasks and sets the
launched ones to starting; a report moves one tracked task on, or back to pending when it failed,
so that the step is offered again.  The status of the step is that of its least advanced task. -/

namespace Rollout

structure TrackedTask where
  descriptor : TaskDescriptor
  status : Status
  deriving DecidableEq, Repr

namespace TrackedTask

def taskId (task : TrackedTask) : TaskId :=
  task.descriptor.taskId

def withStatus (task : TrackedTask) (status : Status) : TrackedTask :=
  { task with status }

def display (task : TrackedTask) : String :=
  task.descriptor.display ++ ":" ++ task.status.label

/-- The order in which tasks are shown, which leaves open what goes for one name. -/
def byName (a b : TrackedTask) : Bool :=
  a.descriptor.name ≤ b.descriptor.name

/-- Puts a task among others, in place of one with the same id. -/
def insert (task : TrackedTask) : List TrackedTask → List TrackedTask
  | [] => [task]
  | held :: rest =>
      if held.taskId = task.taskId then task :: rest else held :: insert task rest

/-- The tasks that a list of recommendations launches.  A launch without an id is
not tracked, and of launches under one id the last counts. -/
def ofRecommendations (recommendations : List Recommendation) : List TrackedTask :=
  let launches := (recommendations.filterMap Recommendation.launched?).filter
    fun task => !task.taskId.isEmpty
  launches.foldl (fun tasks task => insert ⟨task, .starting⟩ tasks) []

def find? (tasks : List TrackedTask) (id : TaskId) : Option TrackedTask :=
  tasks.find? fun task => task.taskId == id

def setStatus (tasks : List TrackedTask) (id : TaskId) (status : Status) : List TrackedTask :=
  tasks.map fun task => if task.taskId = id then task.withStatus status else task

end TrackedTask

/-- An order in which tracked tasks come out of the map that holds them.  The map promises
none, and equal maps may differ in it. -/
structure Arrangement where
  arrange : List TrackedTask → List TrackedTask
  perm : ∀ tasks, (arrange tasks).Perm tasks

namespace Arrangement

def byId : Arrangement where
  arrange := fun tasks => tasks.mergeSort fun a b => a.taskId ≤ b.taskId
  perm := fun tasks => List.mergeSort_perm tasks _

end Arrangement

structure Step where
  name : String
  requirement : Requirement
  errors : List String
  status : Status
  parameters : Environment
  tasks : List TrackedTask
  prepared : Bool
  deriving DecidableEq, Repr

instance : Element Step where
  name := Step.name
  status := Step.status
  errors := Step.errors

namespace Step

def new (name : String) (status : Status) (requirement : Requirement)
    (errors : List String) : Step :=
  { name, requirement, errors, status, parameters := .empty, tasks := [], prepared := false }

def hasErrors (step : Step) : Bool :=
  !step.errors.isEmpty

def derivedStatus (step : Step) : Status :=
  if step.tasks.isEmpty then
    if step.prepared then .prepared else .pending
  else Status.aggregate (step.tasks.map (·.status)) step.status

def restingStatus (step : Step) (status : Status) : Status :=
  if step.errors.isEmpty then status else .error

/-- The requirement to match with offers, with the parameters put over its
environment; none for an invalid or complete step. -/
def start (step : Step) : Option Requirement :=
  if step.hasErrors || step.status.isComplete then none
  else some (step.requirement.withEnvironment step.parameters)

def updateParameters (step : Step) (parameters : Environment) : Step :=
  { step with parameters }

/-- Takes the outcome of an offer.  Without recommendations the tracked tasks stay
and wait for a launch; otherwise the launched ones take their place. -/
def updateOffer (step : Step) (recommendations : List Recommendation) : Step :=
  let tasks :=
    if recommendations.isEmpty then step.tasks.map (·.withStatus .prepared)
    else TrackedTask.ofRecommendations recommendations
  let offered := { step with tasks, prepared := true }
  { offered with status := offered.derivedStatus }

def goalOf (step : Step) (id : TaskId) : Except LookupError Goal := do
  let fullName ← id.resolve
  step.requirement.podInstance.goalOf fullName

/-- Where a report takes a task; none for states that move nothing. -/
def statusAfter (report : TaskReport) (goal : Goal) (task : TaskDescriptor) : Option Status :=
  match report.state with
  | .error | .failed | .killed | .killing | .lost => some .pending
  | .staging | .starting => some .starting
  | .running =>
      if goal = .running ∧ task.isReady report then some .complete else some .starting
  | .finished => if goal = .finished then some .complete else some .pending
  | .dropped | .unreachable | .gone | .unknown => none

/-- Sets the status that the tasks imply; a step that is pending again has to be
prepared anew. -/
def settle (step : Step) : Step :=
  let status := step.derivedStatus
  { step with
    status
    prepared := if status = .pending then false else step.prepared }

/-- Takes a report.  It is ignored for a task that is not tracked, by a complete step,
and when the goal of the task cannot be resolved. -/
def update (step : Step) (report : TaskReport) : Step :=
  match TrackedTask.find? step.tasks report.taskId with
  | none => step
  | some task =>
      if step.status.isComplete then step
      else
        match step.goalOf report.taskId with
        | .error _ => step
        | .ok goal =>
            match statusAfter report goal task.descriptor with
            | some status =>
                settle { step with
                  tasks := TrackedTask.setStatus step.tasks report.taskId status }
            | none => settle step

def restart (step : Step) : Step :=
  { step with tasks := [], prepared := false, status := step.restingStatus .pending }

def forceComplete (step : Step) : Step :=
  { step with
    tasks := step.tasks.map (·.withStatus .complete)
    status := step.restingStatus .complete }

/-- The tracked tasks as they are shown.  Tasks of one name stay in the order in which they
come out of the map. -/
def trackedTasks (arrangement : Arrangement) (step : Step) : List TrackedTask :=
  (arrangement.arrange step.tasks).mergeSort TrackedTask.byName

end Step

end Rollout
