import Rollout.Proofs.Step.Coherence

/-! What reports make of one tracked task.  A report has a transition for the task or it has none;
which one depends on the report and on the goal of the task, never on what was reported before.
So among several reports the latest with a transition decides, until the step is complete and
takes no further report. -/

namespace Rollout

def TaskState.isFailure : TaskState → Bool
  | .error | .failed | .killed | .killing | .lost => true
  | _ => false

def TaskState.isAdvance (state : TaskState) (goal : Goal) : Bool :=
  match state with
  | .staging | .starting | .running => true
  | .finished => goal = .finished
  | _ => false

namespace Step

theorem statusAfter_of_failure {report : TaskReport} (failure : report.state.isFailure = true)
    (goal : Goal) (task : TaskDescriptor) : statusAfter report goal task = some .pending := by
  unfold statusAfter
  cases state : report.state with
  | error | failed | killed | killing | lost => rfl
  | _ =>
      rw [state] at failure
      cases failure

theorem statusAfter_of_no_advance {report : TaskReport} {goal : Goal}
    (stays : report.state.isAdvance goal = false) (task : TaskDescriptor) :
    statusAfter report goal task = none ∨ statusAfter report goal task = some .pending := by
  unfold statusAfter
  cases state : report.state with
  | error | failed | killed | killing | lost => exact Or.inr rfl
  | dropped | unreachable | gone | unknown => exact Or.inl rfl
  | finished =>
      rw [state] at stays
      exact Or.inr (if_neg (of_decide_eq_false stays))
  | staging | starting | running =>
      rw [state] at stays
      cases stays

/-- The status into which a report puts a task of this step; none when its goal is not
found or the reported state moves nothing. -/
def transition? (step : Step) (report : TaskReport) (task : TaskDescriptor) : Option Status :=
  match step.goalOf report.taskId with
  | .error _ => none
  | .ok goal => statusAfter report goal task

theorem transition?_of_goal {step : Step} {report : TaskReport} {goal : Goal}
    (resolved : step.goalOf report.taskId = .ok goal) (task : TaskDescriptor) :
    step.transition? report task = statusAfter report goal task := by
  rw [transition?, resolved]

theorem transition?_congr {step other : Step} (same : other.requirement = step.requirement) :
    other.transition? = step.transition? := by
  funext report task
  simp only [transition?, goalOf, same]

/-! ### One report -/

theorem find?_update_self {step : Step} {report : TaskReport} {task : TrackedTask}
    (unfinished : step.status ≠ .complete)
    (found : TrackedTask.find? step.tasks report.taskId = some task) :
    TrackedTask.find? (step.update report).tasks report.taskId =
      some (task.withStatus ((step.transition? report task.descriptor).getD task.status)) := by
  unfold transition?
  cases resolved : step.goalOf report.taskId with
  | error cause =>
      rw [update_of_unresolved resolved]
      exact found
  | ok goal =>
      rw [update_of_found found unfinished resolved, settle_tasks]
      simp only
      cases statusAfter report goal task.descriptor with
      | none => exact found
      | some status => exact TrackedTask.find?_setStatus_self status found

theorem find?_update_of_failure {step : Step} {report : TaskReport} {task : TrackedTask}
    {goal : Goal} (unfinished : step.status ≠ .complete)
    (found : TrackedTask.find? step.tasks report.taskId = some task)
    (resolved : step.goalOf report.taskId = .ok goal) (failure : report.state.isFailure = true) :
    TrackedTask.find? (step.update report).tasks report.taskId =
      some (task.withStatus .pending) := by
  rw [find?_update_self unfinished found, transition?_of_goal resolved,
    statusAfter_of_failure failure]
  rfl

theorem find?_update_of_ne {step : Step} {report : TaskReport} {id : TaskId}
    (different : id ≠ report.taskId) :
    TrackedTask.find? (step.update report).tasks id = TrackedTask.find? step.tasks id := by
  rcases update_cases step report with same | ⟨task, goal, _, _, _, moved⟩
  · rw [same]
  · rw [moved, settle_tasks]
    cases statusAfter report goal task.descriptor with
    | none => rfl
    | some status => exact TrackedTask.find?_setStatus_of_ne status different

/-! ### Histories without an offer, a restart or force -/

/-- Calls that leave it to the cluster how far the tasks come. -/
def Call.Quiet : Call → Prop
  | .start => True
  | .act (.report _) => True
  | .act (.parameters _) => True
  | _ => False

def Call.reportOn? (id : TaskId) : Call → Option TaskReport
  | .act (.report report) => if report.taskId = id then some report else none
  | _ => none

def reportsOn (id : TaskId) (calls : List Call) : List TaskReport :=
  calls.filterMap (Call.reportOn? id)

theorem reportsOn_cons (id : TaskId) (request : Call) (rest : List Call) :
    reportsOn id (request :: rest) = reportsOn id [request] ++ reportsOn id rest :=
  List.filterMap_append (l := [request])

/-- The status after reports on a task: that of the latest with a transition. -/
def latest (step : Step) (task : TrackedTask) (reports : List TaskReport) : Status :=
  (reports.filterMap fun report => step.transition? report task.descriptor).getLast?.getD
    task.status

theorem latest_congr {step other : Step} (same : other.requirement = step.requirement) :
    other.latest = step.latest := by
  funext task reports
  rw [latest, transition?_congr same]
  rfl

theorem latest_append (step : Step) (task : TrackedTask) (early late : List TaskReport) :
    step.latest task (early ++ late) =
      step.latest (task.withStatus (step.latest task early)) late := by
  simp only [latest, TrackedTask.descriptor_withStatus, TrackedTask.status_withStatus,
    List.filterMap_append, List.getLast?_append]
  cases (late.filterMap fun report => step.transition? report task.descriptor).getLast? <;>
    rfl

theorem latest_singleton (step : Step) (task : TrackedTask) (report : TaskReport) :
    step.latest task [report] = (step.transition? report task.descriptor).getD task.status := by
  unfold latest
  rw [List.filterMap_cons]
  cases step.transition? report task.descriptor <;> rfl

theorem call_of_complete {step : Step} (complete : step.status = .complete) {request : Call}
    (quiet : request.Quiet) :
    (step.call request).status = .complete ∧ (step.call request).tasks = step.tasks := by
  match request, quiet with
  | .start, _ => exact ⟨complete, rfl⟩
  | .act (.report report), _ =>
      rw [show step.call (.act (.report report)) = step from update_of_complete report complete]
      exact ⟨complete, rfl⟩
  | .act (.parameters values), _ => exact ⟨complete, rfl⟩

theorem run_of_complete {step : Step} (complete : step.status = .complete) {calls : List Call}
    (quiet : ∀ request ∈ calls, request.Quiet) :
    (step.run calls).status = .complete ∧ (step.run calls).tasks = step.tasks := by
  refine run_induct (motive := fun reached =>
    reached.status = .complete ∧ reached.tasks = step.tasks) Call.Quiet ?_ ⟨complete, rfl⟩ quiet
  intro reached request permitted holds
  obtain ⟨status, tasks⟩ := call_of_complete holds.1 permitted
  exact ⟨status, tasks.trans holds.2⟩

theorem find?_call {step : Step} {id : TaskId} {task : TrackedTask}
    (unfinished : step.status ≠ .complete)
    (found : TrackedTask.find? step.tasks id = some task) {request : Call}
    (quiet : request.Quiet) :
    TrackedTask.find? (step.call request).tasks id =
      some (task.withStatus (step.latest task (reportsOn id [request]))) := by
  match request, quiet with
  | .start, _ => exact found
  | .act (.parameters values), _ => exact found
  | .act (.report report), _ =>
      change TrackedTask.find? (step.update report).tasks id = _
      by_cases same : report.taskId = id
      · subst same
        rw [find?_update_self unfinished found, reportsOn, List.filterMap_cons,
          Call.reportOn?, if_pos rfl]
        exact congrArg (some <| task.withStatus ·) (step.latest_singleton task report).symm
      · rw [find?_update_of_ne (Ne.symm same), found, reportsOn, List.filterMap_cons,
          Call.reportOn?, if_neg same]
        rfl

theorem latest_of_unmoved {step : Step} {task : TrackedTask} {reports : List TaskReport}
    (unmoved : ∀ report ∈ reports, ∀ status,
      step.transition? report task.descriptor = some status → status = task.status) :
    step.latest task reports = task.status := by
  unfold latest
  cases last : (reports.filterMap fun report =>
      step.transition? report task.descriptor).getLast? with
  | none => rfl
  | some status =>
      obtain ⟨report, member, moves⟩ := List.mem_filterMap.mp (List.mem_of_getLast? last)
      exact unmoved report member status moves

/-- While the step is not complete the latest report with a transition decides. -/
theorem find?_run {step : Step} {id : TaskId} {task : TrackedTask}
    (found : TrackedTask.find? step.tasks id = some task) {calls : List Call}
    (quiet : ∀ request ∈ calls, request.Quiet)
    (unfinished : (step.run calls).status ≠ .complete) :
    TrackedTask.find? (step.run calls).tasks id =
      some (task.withStatus (step.latest task (reportsOn id calls))) := by
  induction calls generalizing step task with
  | nil => exact found
  | cons request rest ih =>
      obtain ⟨first, later⟩ := List.forall_mem_cons.mp quiet
      -- completion outlasts quiet calls, so it has not come before the last of them
      have open' : step.status ≠ .complete := by
        intro complete
        apply unfinished
        exact (run_of_complete (call_of_complete complete first).1 later).1
      rw [show step.run (request :: rest) = (step.call request).run rest from rfl,
        ih (find?_call open' found first) later unfinished]
      rw [latest_congr (step.call_requirement request), reportsOn_cons id request rest,
        latest_append]
      rfl

theorem exists_find?_run {step : Step} {id : TaskId} {task : TrackedTask}
    (found : TrackedTask.find? step.tasks id = some task) {calls : List Call}
    (quiet : ∀ request ∈ calls, request.Quiet) :
    ∃ status, TrackedTask.find? (step.run calls).tasks id = some (task.withStatus status) := by
  induction calls generalizing step task with
  | nil => exact ⟨task.status, found⟩
  | cons request rest ih =>
      obtain ⟨first, later⟩ := List.forall_mem_cons.mp quiet
      by_cases complete : step.status = .complete
      · refine ih ?_ later
        rw [(call_of_complete complete first).2]
        exact found
      · obtain ⟨status, held⟩ := ih (find?_call complete found first) later
        exact ⟨status, held⟩

/-- Until the step is complete the latest report with a transition decides; then every
task is complete. -/
theorem Coherent.find?_run {step : Step} (coherent : step.Coherent) {id : TaskId}
    {task : TrackedTask} (found : TrackedTask.find? step.tasks id = some task)
    {calls : List Call} (quiet : ∀ request ∈ calls, request.Quiet) :
    TrackedTask.find? (step.run calls).tasks id =
      some (task.withStatus (if (step.run calls).status = .complete then .complete
        else step.latest task (reportsOn id calls))) := by
  by_cases complete : (step.run calls).status = .complete
  · obtain ⟨status, held⟩ := exists_find?_run found quiet
    have done : status = .complete :=
      (coherent.run calls).status_of_complete complete (List.mem_of_find?_eq_some held)
    rw [if_pos complete, held, done]
  · rw [if_neg complete]
    exact Step.find?_run found quiet complete

/-- Reports without a transition to another status leave a task where it is, whether the
step takes them or not. -/
theorem find?_run_of_unmoved {step : Step} {id : TaskId} {task : TrackedTask}
    (found : TrackedTask.find? step.tasks id = some task) {calls : List Call}
    (quiet : ∀ request ∈ calls, request.Quiet)
    (unmoved : ∀ report ∈ reportsOn id calls, ∀ status,
      step.transition? report task.descriptor = some status → status = task.status) :
    TrackedTask.find? (step.run calls).tasks id = some task := by
  induction calls generalizing step with
  | nil => exact found
  | cons request rest ih =>
      obtain ⟨first, later⟩ := List.forall_mem_cons.mp quiet
      rw [reportsOn_cons] at unmoved
      apply ih _ later
      · intro report member
        rw [transition?_congr (step.call_requirement request)]
        exact unmoved report (List.mem_append_right _ member)
      · by_cases complete : step.status = .complete
        · rw [(call_of_complete complete first).2]
          exact found
        · rw [find?_call complete found first]
          have still := latest_of_unmoved fun report member =>
            unmoved report (List.mem_append_left _ member)
          rw [still]
          rfl

end Step

end Rollout
