import Rollout.Proofs.Statuses
import Rollout.Proofs.Step.Tasks

/-! What can happen to one step, and what no action changes: the declaration.  A report either
leaves a step as it is or moves one tracked task and settles the step; every other action is a
plain change of the record. -/

namespace Rollout.Step

inductive Action where
  | offer (recommendations : List Recommendation)
  | report (report : TaskReport)
  | parameters (values : Environment)
  | restart
  | complete

def act (step : Step) : Action → Step
  | .offer recommendations => step.updateOffer recommendations
  | .report report => step.update report
  | .parameters values => step.updateParameters values
  | .restart => step.restart
  | .complete => step.forceComplete

def declared (step : Step) : Step :=
  .new step.name (step.restingStatus .pending) step.requirement step.errors

/-- A step as a build or a restart leaves it. -/
structure Untouched (step : Step) : Prop where
  status : step.status = step.restingStatus .pending
  tasks : step.tasks = []
  prepared : step.prepared = false

/-! ### Settling -/

@[simp] theorem settle_tasks (step : Step) : step.settle.tasks = step.tasks := rfl

@[simp] theorem settle_status (step : Step) : step.settle.status = step.derivedStatus := rfl

theorem derivedStatus_of_tasks {step : Step} (tracked : step.tasks ≠ []) :
    step.derivedStatus = Status.aggregate (step.tasks.map (·.status)) step.status := by
  have occupied : step.tasks.isEmpty = false := by simpa using tracked
  rw [derivedStatus, occupied]
  rfl

/-! ### Offers -/

theorem updateOffer_tasks (step : Step) {recommendations : List Recommendation}
    (nonempty : recommendations ≠ []) :
    (step.updateOffer recommendations).tasks =
      TrackedTask.ofRecommendations recommendations := by
  have present : recommendations.isEmpty = false := by simpa using nonempty
  simp only [updateOffer, present, Bool.false_eq_true, if_false]

theorem updateOffer_nil_tasks (step : Step) :
    (step.updateOffer []).tasks = step.tasks.map (·.withStatus .prepared) := rfl

/-! ### Reports -/

/-- Where a report puts the tasks: the named one moves if there is a status for it. -/
def advance (tasks : List TrackedTask) (id : TaskId) : Option Status → List TrackedTask
  | some status => TrackedTask.setStatus tasks id status
  | none => tasks

theorem map_descriptor_advance (tasks : List TrackedTask) (id : TaskId)
    (target : Option Status) :
    (advance tasks id target).map (·.descriptor) = tasks.map (·.descriptor) := by
  cases target with
  | none => rfl
  | some status => exact TrackedTask.map_descriptor_setStatus tasks id status

theorem update_of_untracked {step : Step} {report : TaskReport}
    (absent : ∀ task ∈ step.tasks, task.taskId ≠ report.taskId) : step.update report = step := by
  rw [update, TrackedTask.find?_eq_none_iff.mpr absent]

theorem update_of_complete {step : Step} (report : TaskReport)
    (complete : step.status = .complete) : step.update report = step := by
  have closed : step.status.isComplete = true := Status.isComplete_iff.mpr complete
  unfold update
  split
  · rfl
  · rw [if_pos closed]

theorem update_of_unresolved {step : Step} {report : TaskReport} {cause : LookupError}
    (unresolved : step.goalOf report.taskId = .error cause) : step.update report = step := by
  unfold update
  split
  · rfl
  · rw [unresolved]
    split <;> rfl

/-- The one case in which a report is taken. -/
theorem update_of_found {step : Step} {report : TaskReport} {task : TrackedTask} {goal : Goal}
    (found : TrackedTask.find? step.tasks report.taskId = some task)
    (unfinished : step.status ≠ .complete) (resolved : step.goalOf report.taskId = .ok goal) :
    step.update report =
      settle { step with
        tasks := advance step.tasks report.taskId
          (statusAfter report goal task.descriptor) } := by
  have unclosed : ¬ step.status.isComplete = true := fun closed =>
    unfinished (Status.isComplete_iff.mp closed)
  unfold update
  simp only [found, if_neg unclosed, resolved]
  cases statusAfter report goal task.descriptor <;> rfl

theorem update_of_tracked {step : Step} {report : TaskReport} {task : TrackedTask}
    {status : Status} (distinct : (step.tasks.map TrackedTask.taskId).Nodup)
    (member : task ∈ step.tasks) (reported : report.taskId = task.taskId)
    (unfinished : step.status ≠ .complete)
    (resolved : step.goalOf task.taskId = .ok task.descriptor.goal)
    (moves : statusAfter report task.descriptor.goal task.descriptor = some status) :
    step.update report =
      settle { step with tasks := TrackedTask.setStatus step.tasks task.taskId status } := by
  have found := TrackedTask.find?_of_mem distinct member
  rw [← reported] at found resolved
  rw [update_of_found found unfinished resolved, moves, reported]
  rfl

theorem update_cases (step : Step) (report : TaskReport) :
    step.update report = step ∨
      ∃ task goal, TrackedTask.find? step.tasks report.taskId = some task ∧
        step.status ≠ .complete ∧ step.goalOf report.taskId = .ok goal ∧
        step.update report =
          settle { step with
            tasks := advance step.tasks report.taskId
              (statusAfter report goal task.descriptor) } := by
  cases found : TrackedTask.find? step.tasks report.taskId with
  | none => exact Or.inl (update_of_untracked (TrackedTask.find?_eq_none_iff.mp found))
  | some task =>
      by_cases complete : step.status = .complete
      · exact Or.inl (update_of_complete report complete)
      cases resolved : step.goalOf report.taskId with
      | error cause => exact Or.inl (update_of_unresolved resolved)
      | ok goal =>
          exact Or.inr ⟨task, goal, rfl, complete, rfl, update_of_found found complete resolved⟩

/-! ### The declaration stays -/

theorem update_frame (step : Step) (report : TaskReport) :
    (step.update report).name = step.name ∧ (step.update report).errors = step.errors ∧
      (step.update report).requirement = step.requirement ∧
      (step.update report).parameters = step.parameters ∧
      (step.update report).tasks.map (·.descriptor) = step.tasks.map (·.descriptor) := by
  rcases update_cases step report with same | ⟨task, goal, _, _, _, moved⟩
  · rw [same]
    exact ⟨rfl, rfl, rfl, rfl, rfl⟩
  · rw [moved]
    exact ⟨rfl, rfl, rfl, rfl, map_descriptor_advance _ _ _⟩

theorem foldl_update_eq_self {step : Step} {reports : List TaskReport}
    (ignored : ∀ report ∈ reports, step.update report = step) :
    reports.foldl update step = step := by
  induction reports with
  | nil => rfl
  | cons report rest ih =>
      rw [List.foldl_cons, ignored report List.mem_cons_self]
      exact ih fun other member => ignored other (List.mem_cons_of_mem _ member)

theorem foldl_update_of_untracked {step : Step} {reports : List TaskReport}
    (absent : ∀ report ∈ reports, ∀ task ∈ step.tasks, task.taskId ≠ report.taskId) :
    reports.foldl update step = step :=
  foldl_update_eq_self fun report member => update_of_untracked (absent report member)

theorem foldl_update_frame (step : Step) (reports : List TaskReport) :
    (reports.foldl update step).name = step.name ∧
      (reports.foldl update step).errors = step.errors ∧
      (reports.foldl update step).requirement = step.requirement ∧
      (reports.foldl update step).parameters = step.parameters ∧
      (reports.foldl update step).tasks.map (·.descriptor) = step.tasks.map (·.descriptor) := by
  induction reports generalizing step with
  | nil => exact ⟨rfl, rfl, rfl, rfl, rfl⟩
  | cons report rest ih =>
      obtain ⟨name, errors, requirement, parameters, tasks⟩ := ih (step.update report)
      obtain ⟨name', errors', requirement', parameters', tasks'⟩ := step.update_frame report
      exact ⟨name.trans name', errors.trans errors', requirement.trans requirement',
        parameters.trans parameters', tasks.trans tasks'⟩

@[simp] theorem act_name (step : Step) (action : Action) : (step.act action).name = step.name := by
  cases action with
  | report report => exact (update_frame step report).1
  | _ => rfl

@[simp] theorem act_errors (step : Step) (action : Action) :
    (step.act action).errors = step.errors := by
  cases action with
  | report report => exact (update_frame step report).2.1
  | _ => rfl

@[simp] theorem act_requirement (step : Step) (action : Action) :
    (step.act action).requirement = step.requirement := by
  cases action with
  | report report => exact (update_frame step report).2.2.1
  | _ => rfl

theorem declared_act (step : Step) (action : Action) :
    (step.act action).declared = step.declared := by
  simp only [declared, restingStatus, act_name, act_errors, act_requirement]

theorem act_descriptors (step : Step) {action : Action}
    (noOffer : ∀ recommendations, action ≠ .offer recommendations) :
    (step.act action).tasks.map (·.descriptor) = step.tasks.map (·.descriptor) ∨
      (step.act action).tasks = [] := by
  cases action with
  | offer recommendations => exact False.elim (noOffer recommendations rfl)
  | report report => exact Or.inl (update_frame step report).2.2.2.2
  | parameters values => exact Or.inl rfl
  | restart => exact Or.inr rfl
  | complete => exact Or.inl (TrackedTask.map_descriptor_withStatus step.tasks .complete)

/-! ### Untouched steps -/

theorem untouched_restart (step : Step) : step.restart.Untouched := ⟨rfl, rfl, rfl⟩

theorem untouched_declared (step : Step) : step.declared.Untouched := ⟨rfl, rfl, rfl⟩

theorem Untouched.update {step : Step} (untouched : step.Untouched) (report : TaskReport) :
    step.update report = step := by
  apply update_of_untracked
  rw [untouched.tasks]
  intro task impossible
  cases impossible

theorem Untouched.status_of_errors {step : Step} (untouched : step.Untouched)
    (faulty : step.errors ≠ []) : step.status = .error := by
  have present : step.errors.isEmpty = false := by simpa using faulty
  rw [untouched.status, restingStatus, present]
  rfl

theorem Untouched.act {step : Step} (untouched : step.Untouched) (faulty : step.errors ≠ [])
    {action : Action} (noOffer : ∀ recommendations, action ≠ .offer recommendations) :
    (step.act action).Untouched := by
  cases action with
  | offer recommendations => exact False.elim (noOffer recommendations rfl)
  | report report =>
      have same : step.act (.report report) = step := untouched.update report
      rw [same]
      exact untouched
  | parameters values => exact ⟨untouched.status, untouched.tasks, untouched.prepared⟩
  | restart => exact untouched_restart step
  | complete =>
      have present : step.errors.isEmpty = false := by simpa using faulty
      refine ⟨?_, ?_, untouched.prepared⟩
      · simp only [Step.act, forceComplete, restingStatus, present, Bool.false_eq_true, if_false]
      · simp only [Step.act, forceComplete, untouched.tasks, List.map_nil]

end Rollout.Step
