import Rollout.Proofs.Step.Histories

/-! The status of a valid step is that of its least advanced task.  Every action keeps it so: an
offer and a report derive the status anew from the tasks, a restart drops the tasks, and
completion by force moves them along.  It does not matter which status the step was built with,
because nothing is tracked before the first offer. -/

namespace Rollout.Step

/-! ### The implied status -/

/-- The previous status has no say in the implied one. -/
theorem derivedStatus_congr {step other : Step} (tasks : step.tasks = other.tasks)
    (prepared : step.tasks = [] → step.prepared = other.prepared) :
    step.derivedStatus = other.derivedStatus := by
  by_cases tracked : step.tasks = []
  · have untracked : other.tasks = [] := tasks ▸ tracked
    rw [derivedStatus, derivedStatus, prepared tracked, tracked, untracked]
    rfl
  · have occupied : step.tasks.map (·.status) ≠ [] := by simpa using tracked
    rw [derivedStatus_of_tasks tracked, derivedStatus_of_tasks (tasks ▸ tracked), ← tasks]
    exact Status.aggregate_previous occupied step.status other.status

theorem derivedStatus_of_untracked {step : Step} (untracked : step.tasks = []) :
    step.derivedStatus = if step.prepared then .prepared else .pending := by
  rw [derivedStatus, untracked]
  rfl

theorem exists_status_eq_derived {step : Step} (tracked : step.tasks ≠ []) :
    ∃ task ∈ step.tasks, task.status = step.derivedStatus := by
  rw [derivedStatus_of_tasks tracked]
  exact List.mem_map.mp (Status.aggregate_mem (by simpa using tracked))

theorem derivedStatus_le {step : Step} {task : TrackedTask} (member : task ∈ step.tasks) :
    step.derivedStatus ≤ task.status := by
  rw [derivedStatus_of_tasks (List.ne_nil_of_mem member)]
  exact Status.aggregate_le (List.mem_map_of_mem member)

theorem settle_prepared_iff (step : Step) :
    step.settle.prepared = true ↔ step.prepared = true ∧ step.settle.status ≠ .pending := by
  by_cases pending : step.derivedStatus = .pending <;> simp [settle, pending]

/-! ### Offers -/

theorem updateOffer_status (step : Step) (recommendations : List Recommendation) :
    (step.updateOffer recommendations).status =
      (step.updateOffer recommendations).derivedStatus :=
  derivedStatus_congr rfl fun _ => rfl

theorem status_updateOffer_of_tasks {step : Step} {recommendations : List Recommendation}
    {status : Status} (tracked : (step.updateOffer recommendations).tasks ≠ [])
    (every : ∀ task ∈ (step.updateOffer recommendations).tasks, task.status = status) :
    (step.updateOffer recommendations).status = status := by
  obtain ⟨task, member, same⟩ := exists_status_eq_derived tracked
  rw [updateOffer_status, ← same]
  exact every task member

theorem prepared_of_mem_updateOffer {step : Step} {task : TrackedTask}
    (member : task ∈ (step.updateOffer []).tasks) : task.status = .prepared := by
  rw [updateOffer_nil_tasks] at member
  obtain ⟨held, _, same⟩ := List.mem_map.mp member
  exact same ▸ rfl

theorem starting_of_mem_updateOffer {step : Step} {recommendations : List Recommendation}
    (matched : recommendations ≠ []) {task : TrackedTask}
    (member : task ∈ (step.updateOffer recommendations).tasks) : task.status = .starting := by
  rw [step.updateOffer_tasks matched] at member
  exact (TrackedTask.of_mem_ofRecommendations member).2

theorem status_of_mem_updateOffer {step : Step} {recommendations : List Recommendation}
    {task : TrackedTask} (member : task ∈ (step.updateOffer recommendations).tasks) :
    task.status = .prepared ∨ task.status = .starting := by
  by_cases unmatched : recommendations = []
  · subst unmatched
    exact Or.inl (prepared_of_mem_updateOffer member)
  · exact Or.inr (starting_of_mem_updateOffer unmatched member)

theorem status_updateOffer_of_untracked {step : Step} {recommendations : List Recommendation}
    (untracked : (step.updateOffer recommendations).tasks = []) :
    (step.updateOffer recommendations).status = .prepared := by
  rw [updateOffer_status, derivedStatus_of_untracked untracked]
  rfl

theorem status_updateOffer_nil (step : Step) : (step.updateOffer []).status = .prepared := by
  by_cases untracked : (step.updateOffer []).tasks = []
  · exact status_updateOffer_of_untracked untracked
  · exact status_updateOffer_of_tasks untracked fun _ => prepared_of_mem_updateOffer

theorem status_updateOffer (step : Step) {recommendations : List Recommendation}
    (matched : recommendations ≠ []) :
    (step.updateOffer recommendations).status =
      if (step.updateOffer recommendations).tasks = [] then .prepared else .starting := by
  by_cases untracked : (step.updateOffer recommendations).tasks = []
  · rw [if_pos untracked]
    exact status_updateOffer_of_untracked untracked
  · rw [if_neg untracked]
    exact status_updateOffer_of_tasks untracked fun _ => starting_of_mem_updateOffer matched

theorem updateOffer_status_cases (step : Step) (recommendations : List Recommendation) :
    (step.updateOffer recommendations).status = .prepared ∨
      (step.updateOffer recommendations).status = .starting := by
  by_cases unmatched : recommendations = []
  · subst unmatched
    exact Or.inl step.status_updateOffer_nil
  · rw [step.status_updateOffer unmatched]
    split
    · exact Or.inl rfl
    · exact Or.inr rfl

theorem nodup_updateOffer {step : Step} (recommendations : List Recommendation)
    (distinct : (step.tasks.map TrackedTask.taskId).Nodup) :
    ((step.updateOffer recommendations).tasks.map TrackedTask.taskId).Nodup := by
  by_cases unmatched : recommendations = []
  · subst unmatched
    rw [updateOffer_nil_tasks, TrackedTask.map_taskId_withStatus]
    exact distinct
  · rw [step.updateOffer_tasks unmatched]
    exact TrackedTask.nodup_ofRecommendations recommendations

/-! ### Reports -/

theorem statusAfter_ne_error (report : TaskReport) (goal : Goal) (task : TaskDescriptor) :
    statusAfter report goal task ≠ some .error := by
  unfold statusAfter
  cases report.state with
  | running => by_cases ready : goal = .running ∧ task.isReady report = true <;> simp [ready]
  | finished => by_cases ends : goal = .finished <;> simp [ends]
  | _ => simp

theorem status_of_mem_advance {tasks : List TrackedTask} {id : TaskId}
    {target : Option Status} {task : TrackedTask} (member : task ∈ advance tasks id target) :
    target = some task.status ∨ ∃ held ∈ tasks, held.status = task.status := by
  cases target with
  | none => exact Or.inr ⟨task, member, rfl⟩
  | some status =>
      obtain ⟨held, inTasks, moved⟩ := TrackedTask.mem_setStatus_iff.mp member
      split at moved
      · exact Or.inl (moved ▸ rfl)
      · exact Or.inr ⟨held, inTasks, moved ▸ rfl⟩

/-! ### Coherence -/

/-- A valid step whose status is the one that its tasks imply, if it tracks any. -/
structure Coherent (step : Step) : Prop where
  valid : step.errors = []
  distinct : (step.tasks.map TrackedTask.taskId).Nodup
  sound : ∀ task ∈ step.tasks, task.status ≠ .error
  derived : step.tasks ≠ [] → step.status = step.derivedStatus
  apart : step.prepared = true → step.status ≠ .pending

theorem coherent_of_untracked {step : Step} (valid : step.errors = [])
    (untracked : step.tasks = []) (unprepared : step.prepared = false) : step.Coherent where
  valid := valid
  distinct := by
    rw [untracked]
    exact List.nodup_nil
  sound := by
    intro task member
    rw [untracked] at member
    cases member
  derived := fun tracked => False.elim (tracked untracked)
  apart := by
    intro prepared
    rw [unprepared] at prepared
    cases prepared

theorem coherent_new (name : String) (status : Status) (requirement : Requirement) :
    Coherent (.new name status requirement []) :=
  coherent_of_untracked rfl rfl rfl

namespace Coherent

variable {step : Step}

theorem restingStatus_eq (coherent : step.Coherent) (status : Status) :
    step.restingStatus status = status := by
  rw [restingStatus, coherent.valid]
  rfl

theorem exists_status_eq (coherent : step.Coherent) (tracked : step.tasks ≠ []) :
    ∃ task ∈ step.tasks, task.status = step.status := by
  rw [coherent.derived tracked]
  exact exists_status_eq_derived tracked

theorem status_le (coherent : step.Coherent) {task : TrackedTask}
    (member : task ∈ step.tasks) : step.status ≤ task.status := by
  rw [coherent.derived (List.ne_nil_of_mem member)]
  exact derivedStatus_le member

theorem status_of_complete (coherent : step.Coherent) (complete : step.status = .complete)
    {task : TrackedTask} (member : task ∈ step.tasks) : task.status = .complete := by
  have below := coherent.status_le member
  rw [complete] at below
  exact Status.le_antisymm (Status.le_complete _) below

/-- A pending task holds the step back, since no task is in error. -/
theorem status_of_pending (coherent : step.Coherent) {task : TrackedTask}
    (member : task ∈ step.tasks) (pending : task.status = .pending) :
    step.status = .pending := by
  obtain ⟨least, inside, same⟩ := coherent.exists_status_eq (List.ne_nil_of_mem member)
  have below := coherent.status_le member
  have sound := coherent.sound least inside
  rw [pending] at below
  rw [same] at sound
  cases status : step.status with
  | error => exact False.elim (sound status)
  | pending => rfl
  | _ =>
      rw [status] at below
      exact False.elim (absurd below (by decide))

/-! ### Actions -/

theorem updateOffer (coherent : step.Coherent) (recommendations : List Recommendation) :
    (step.updateOffer recommendations).Coherent where
  valid := coherent.valid
  distinct := nodup_updateOffer recommendations coherent.distinct
  sound := by
    intro task member failed
    rcases status_of_mem_updateOffer member with status | status
    all_goals
      rw [failed] at status
      cases status
  derived := fun _ => updateOffer_status step recommendations
  apart := by
    intro _ pending
    rcases step.updateOffer_status_cases recommendations with status | status
    all_goals
      rw [pending] at status
      cases status

theorem update (coherent : step.Coherent) (report : TaskReport) :
    (step.update report).Coherent := by
  rcases update_cases step report with same | ⟨task, goal, found, _, _, moved⟩
  · rw [same]
    exact coherent
  · rw [moved]
    refine ⟨coherent.valid, ?_, ?_, ?_, ?_⟩
    · rw [settle_tasks, TrackedTask.map_taskId_eq, map_descriptor_advance,
        ← TrackedTask.map_taskId_eq]
      exact coherent.distinct
    · intro other member failed
      rcases status_of_mem_advance member with target | ⟨held, inTasks, same⟩
      · exact statusAfter_ne_error _ _ _ (target.trans (congrArg some failed))
      · exact coherent.sound held inTasks (same.trans failed)
    · exact fun tracked => derivedStatus_congr rfl fun none => False.elim (tracked none)
    · exact fun prepared => ((settle_prepared_iff _).mp prepared).2

theorem restart (coherent : step.Coherent) : step.restart.Coherent :=
  coherent_of_untracked coherent.valid rfl rfl

theorem forceComplete (coherent : step.Coherent) : step.forceComplete.Coherent := by
  have status : step.forceComplete.status = .complete := coherent.restingStatus_eq .complete
  have done : ∀ task ∈ step.forceComplete.tasks, task.status = .complete := by
    intro task member
    obtain ⟨held, _, same⟩ := List.mem_map.mp member
    exact same ▸ rfl
  refine ⟨coherent.valid, ?_, ?_, ?_, ?_⟩
  · change ((step.tasks.map (·.withStatus .complete)).map TrackedTask.taskId).Nodup
    rw [TrackedTask.map_taskId_withStatus]
    exact coherent.distinct
  · intro task member failed
    rw [done task member] at failed
    cases failed
  · intro tracked
    obtain ⟨task, member, same⟩ := exists_status_eq_derived tracked
    rw [status, ← same, done task member]
  · intro _ pending
    rw [status] at pending
    cases pending

theorem act (coherent : step.Coherent) (action : Action) : (step.act action).Coherent := by
  cases action with
  | offer recommendations => exact coherent.updateOffer recommendations
  | report report => exact coherent.update report
  | parameters values =>
      exact ⟨coherent.valid, coherent.distinct, coherent.sound, coherent.derived,
        coherent.apart⟩
  | restart => exact coherent.restart
  | complete => exact coherent.forceComplete

/-- Offers and restarts apart, no action undoes a completion or touches its tasks. -/
theorem act_of_complete (coherent : step.Coherent) (complete : step.status = .complete)
    {action : Action} (noOffer : ∀ recommendations, action ≠ .offer recommendations)
    (noRestart : action ≠ .restart) :
    (step.act action).status = .complete ∧ (step.act action).tasks = step.tasks := by
  cases action with
  | offer recommendations => exact False.elim (noOffer recommendations rfl)
  | restart => exact False.elim (noRestart rfl)
  | parameters values => exact ⟨complete, rfl⟩
  | report report =>
      have ignored : step.act (.report report) = step := update_of_complete report complete
      rw [ignored]
      exact ⟨complete, rfl⟩
  | complete =>
      have still : ∀ task ∈ step.tasks, task.withStatus .complete = id task := by
        intro task member
        rw [← coherent.status_of_complete complete member]
        rfl
      refine ⟨coherent.restingStatus_eq .complete, ?_⟩
      exact (List.map_congr_left still).trans step.tasks.map_id

theorem call (coherent : step.Coherent) (request : Call) : (step.call request).Coherent := by
  cases request with
  | start => exact coherent
  | act action => exact coherent.act action

theorem run (coherent : step.Coherent) (calls : List Call) : (step.run calls).Coherent :=
  run_induct (fun _ => True) (fun _ request _ holds => holds.call request) coherent
    (fun _ _ => trivial)

end Coherent

/-! ### Steps without tasks -/

/-- A coherent step that starts tasks only while it tracks some. -/
structure Regular (step : Step) : Prop where
  coherent : step.Coherent
  idle : step.tasks = [] →
    step.status = .pending ∨ step.status = .prepared ∨ step.status = .complete

theorem regular_of_untracked {step : Step} (valid : step.errors = [])
    (untouched : step.Untouched) : step.Regular where
  coherent := coherent_of_untracked valid untouched.tasks untouched.prepared
  idle := by
    intro _
    rw [untouched.status, restingStatus, valid]
    exact Or.inl rfl

theorem derivedStatus_cases_of_untracked {step : Step} (untracked : step.tasks = []) :
    step.derivedStatus = .pending ∨ step.derivedStatus = .prepared := by
  rw [derivedStatus_of_untracked untracked]
  cases step.prepared with
  | true => exact Or.inr rfl
  | false => exact Or.inl rfl

namespace Regular

variable {step : Step}

theorem act (regular : step.Regular) (action : Action) : (step.act action).Regular where
  coherent := regular.coherent.act action
  idle := by
    intro untracked
    cases action with
    | offer recommendations =>
        change (step.updateOffer recommendations).tasks = [] at untracked
        rcases step.updateOffer_status_cases recommendations with prepared | starting
        · exact Or.inr (Or.inl prepared)
        · have derived := updateOffer_status step recommendations
          rw [starting, derivedStatus_of_untracked untracked] at derived
          cases derived
    | report report =>
        rcases update_cases step report with same | ⟨_, _, _, _, _, moved⟩
        · rw [show step.act (.report report) = step from same] at untracked ⊢
          exact regular.idle untracked
        · rw [show step.act (.report report) = _ from moved] at untracked ⊢
          rw [settle_tasks] at untracked
          rw [settle_status]
          exact (derivedStatus_cases_of_untracked untracked).imp_right Or.inl
    | parameters values => exact regular.idle untracked
    | restart => exact Or.inl (regular.coherent.restingStatus_eq .pending)
    | complete => exact Or.inr (Or.inr (regular.coherent.restingStatus_eq .complete))

theorem status_ne_error (regular : step.Regular) : step.status ≠ .error := by
  intro failed
  by_cases untracked : step.tasks = []
  · rcases regular.idle untracked with status | status | status
    all_goals
      rw [failed] at status
      cases status
  · obtain ⟨task, member, same⟩ := regular.coherent.exists_status_eq untracked
    exact regular.coherent.sound task member (same.trans failed)

theorem exists_starting (regular : step.Regular) (starting : step.status = .starting) :
    ∃ task ∈ step.tasks, task.status = .starting := by
  rw [← starting]
  apply regular.coherent.exists_status_eq
  intro untracked
  rcases regular.idle untracked with status | status | status
  all_goals
    rw [starting] at status
    cases status

end Regular

end Rollout.Step
