import Mathlib.Data.List.Basic
import Rollout.Proofs.Step.Actions
import Rollout.Rehearsal.Cluster

/-! What the simulated cluster says about tasks, and what becomes of a step that is told. The
cluster speaks of each task once, when it first sees it starting, and with the second report it
has settled the task: complete, or pending again. -/

namespace Rollout

namespace Cluster

def said (task : TaskDescriptor) (fails : Bool) : List TaskReport :=
  [TaskReport.new task.taskId .staging, if fails then failure task else success task]

def notices (cluster : Cluster) (task : TrackedTask) : Bool :=
  task.status = .starting ∧ ¬ cluster.reported.contains task.taskId

def verdict (fails : Bool) : Status :=
  if fails then .pending else .complete

theorem notices_iff {cluster : Cluster} {task : TrackedTask} :
    cluster.notices task = true ↔ task.status = .starting ∧ task.taskId ∉ cluster.reported := by
  simp [notices]

theorem mem_reported_of_unnoticed {cluster : Cluster} {task : TrackedTask}
    (unnoticed : cluster.notices task = false) (starting : task.status = .starting) :
    task.taskId ∈ cluster.reported := by
  simpa [notices, starting] using unnoticed

theorem taskId_of_said {task : TaskDescriptor} (fails : Bool) {report : TaskReport}
    (member : report ∈ said task fails) : report.taskId = task.taskId := by
  rcases List.mem_cons.mp member with staging | later
  · rw [staging]
    rfl
  · rw [List.mem_singleton.mp later]
    cases fails with
    | true => rfl
    | false =>
        simp only [Bool.false_eq_true, if_false, success]
        cases task.goal <;> rfl

theorem observe_of_noticed {cluster : Cluster} {task : TrackedTask}
    (noticed : cluster.notices task = true) :
    (cluster.observe task).1 =
        said task.descriptor (cluster.failing.contains task.descriptor.name) ∧
      (cluster.observe task).2.reported = task.taskId :: cluster.reported ∧
      ∀ name, name ∈ (cluster.observe task).2.failing ↔
        name ∈ cluster.failing ∧ name ≠ task.descriptor.name := by
  have sees : task.status = .starting ∧ ¬ cluster.reported.contains task.taskId :=
    of_decide_eq_true noticed
  unfold observe
  rw [if_pos sees]
  cases listed : cluster.failing.contains task.descriptor.name with
  | true =>
      refine ⟨rfl, rfl, fun name => ?_⟩
      simp
  | false =>
      have absent : task.descriptor.name ∉ cluster.failing := by simpa using listed
      refine ⟨rfl, rfl, fun name => ?_⟩
      constructor
      · exact fun fails => ⟨fails, fun same => absent (same ▸ fails)⟩
      · exact And.left

theorem observe_of_unnoticed {cluster : Cluster} {task : TrackedTask}
    (unnoticed : cluster.notices task = false) : cluster.observe task = ([], cluster) :=
  if_neg (of_decide_eq_false unnoticed)

theorem observeAll_cons_of_unnoticed {cluster : Cluster} {task : TrackedTask}
    (unnoticed : cluster.notices task = false) (rest : List TrackedTask) :
    cluster.observeAll (task :: rest) = cluster.observeAll rest := by
  rw [observeAll, observe_of_unnoticed unnoticed]
  rfl

theorem observeAll_of_unnoticed {cluster : Cluster} {tasks : List TrackedTask}
    (unnoticed : ∀ task ∈ tasks, cluster.notices task = false) :
    cluster.observeAll tasks = ([], cluster) := by
  induction tasks with
  | nil => rfl
  | cons task rest ih =>
      rw [observeAll_cons_of_unnoticed (unnoticed task List.mem_cons_self)]
      exact ih fun other member => unnoticed other (List.mem_cons_of_mem _ member)

/-- The outcome of a look at many tasks.  Which tasks fail depends on the order of the
list; all that matters later is that each failure uses up a name. -/
structure Answers (before : Cluster) (tasks : List TrackedTask) (fails : TaskId → Bool)
    (reports : List TaskReport) (after : Cluster) : Prop where
  reports : reports = (tasks.filter before.notices).flatMap fun task =>
    said task.descriptor (fails task.taskId)
  reported : ∀ id ∈ after.reported, id ∈ before.reported ∨ ∃ task ∈ tasks, task.taskId = id
  failing : after.failing ⊆ before.failing
  usedUp : ∀ task ∈ tasks, before.notices task = true → fails task.taskId = true →
    task.descriptor.name ∈ before.failing ∧ task.descriptor.name ∉ after.failing

/-- Seeing one task does not change what the cluster makes of tasks with other ids. -/
theorem notices_of_ne {cluster : Cluster} {task other : TrackedTask}
    (different : other.taskId ≠ task.taskId) :
    (cluster.observe task).2.notices other = cluster.notices other := by
  cases noticed : cluster.notices task with
  | false => rw [observe_of_unnoticed noticed]
  | true =>
      have reported := (observe_of_noticed noticed).2.1
      rw [Bool.eq_iff_iff, notices_iff, notices_iff, reported, List.mem_cons, not_or]
      constructor
      · intro sees
        exact ⟨sees.1, sees.2.2⟩
      · intro sees
        exact ⟨sees.1, different, sees.2⟩

theorem observeAll_answers (cluster : Cluster) {tasks : List TrackedTask}
    (distinct : (tasks.map TrackedTask.taskId).Nodup) :
    ∃ fails, Answers cluster tasks fails (cluster.observeAll tasks).1
      (cluster.observeAll tasks).2 := by
  induction tasks generalizing cluster with
  | nil =>
      refine ⟨fun _ => false, rfl, fun id member => Or.inl member, List.Subset.refl _, ?_⟩
      intro task impossible
      cases impossible
  | cons task rest ih =>
      rw [List.map_cons, List.nodup_cons] at distinct
      have others : ∀ other ∈ rest, other.taskId ≠ task.taskId := by
        intro other member same
        exact distinct.1 (same ▸ List.mem_map_of_mem member)
      obtain ⟨fails, answers⟩ := ih (cluster.observe task).2 distinct.2
      have noticedLater : rest.filter (cluster.observe task).2.notices =
          rest.filter cluster.notices :=
        List.filter_congr fun other member => notices_of_ne (others other member)
      cases noticed : cluster.notices task with
      | false =>
          rw [observe_of_unnoticed noticed] at answers
          have same := observeAll_cons_of_unnoticed noticed rest
          refine ⟨fails, ?_, ?_, ?_, ?_⟩
          · rw [same, List.filter_cons_of_neg (by rw [noticed]; exact Bool.false_ne_true)]
            exact answers.reports
          · intro id member
            rw [same] at member
            refine (answers.reported id member).imp_right ?_
            intro found
            obtain ⟨other, inRest, same⟩ := found
            exact ⟨other, List.mem_cons_of_mem _ inRest, same⟩
          · rw [same]
            exact answers.failing
          · intro other member sees failed
            rw [same]
            rcases List.mem_cons.mp member with here | inRest
            · rw [here, noticed] at sees
              cases sees
            · exact answers.usedUp other inRest sees failed
      | true =>
          obtain ⟨first, reported, failing⟩ := observe_of_noticed noticed
          -- the verdict on this task, and the later ones for all other ids
          refine ⟨fun id => if id = task.taskId then
            cluster.failing.contains task.descriptor.name else fails id, ?_, ?_, ?_, ?_⟩
          · rw [List.filter_cons_of_pos noticed, List.flatMap_cons, if_pos rfl, ← first]
            change (cluster.observe task).1 ++ ((cluster.observe task).2.observeAll rest).1 = _
            rw [answers.reports, noticedLater]
            congr 1
            refine List.flatMap_congr ?_
            intro other member
            rw [if_neg (others other (List.mem_filter.mp member).1)]
          · intro id member
            rcases answers.reported id member with before | ⟨other, inRest, same⟩
            · rw [reported] at before
              rcases List.mem_cons.mp before with here | earlier
              · exact Or.inr ⟨task, List.mem_cons_self, here.symm⟩
              · exact Or.inl earlier
            · exact Or.inr ⟨other, List.mem_cons_of_mem _ inRest, same⟩
          · intro name still
            exact ((failing name).mp (answers.failing still)).1
          · intro other member sees failed
            rcases List.mem_cons.mp member with here | inRest
            · subst here
              rw [if_pos rfl] at failed
              refine ⟨by simpa using failed, ?_⟩
              intro still
              exact ((failing _).mp (answers.failing still)).2 rfl
            · rw [if_neg (others other inRest)] at failed
              rw [← notices_of_ne (others other inRest)] at sees
              obtain ⟨listed, gone⟩ := answers.usedUp other inRest sees failed
              exact ⟨((failing _).mp listed).1, gone⟩

theorem statusAfter_outcome (task : TaskDescriptor) (fails : Bool) :
    Step.statusAfter (if fails then failure task else success task) task.goal task =
      some (verdict fails) := by
  cases fails with
  | true => rfl
  | false =>
      simp only [Bool.false_eq_true, if_false, success]
      cases goal : task.goal with
      | running =>
          have ready : task.isReady
              (TaskReport.new task.taskId .running).withReadinessPassed = true :=
            Bool.or_true _
          simp only [Step.statusAfter, TaskReport.withReadinessPassed, TaskReport.new, verdict,
            Bool.false_eq_true, if_false, true_and]
          exact if_pos ready
      | finished => rfl

end Cluster

/-! ### A step that is told -/

namespace Step

/-- A step whose tasks can all be reported on, and whose status is theirs. -/
structure Underway (step : Step) : Prop where
  occupied : step.tasks ≠ []
  distinct : (step.tasks.map TrackedTask.taskId).Nodup
  resolved : ∀ task ∈ step.tasks, step.goalOf task.taskId = .ok task.descriptor.goal
  derived : step.status = Status.aggregate (step.tasks.map (·.status)) .pending

namespace Underway

variable {step : Step} {task : TrackedTask}

theorem unfinished (underway : step.Underway) (member : task ∈ step.tasks)
    (starting : task.status = .starting) : step.status ≠ .complete := by
  rw [underway.derived, Ne, Status.aggregate_eq_complete_iff (by simpa using underway.occupied)]
  intro complete
  have impossible := complete task.status (List.mem_map_of_mem member)
  rw [starting] at impossible
  cases impossible

theorem update (underway : step.Underway) (member : task ∈ step.tasks)
    (starting : task.status = .starting) {report : TaskReport} {status : Status}
    (reported : report.taskId = task.taskId)
    (moves : statusAfter report task.descriptor.goal task.descriptor = some status) :
    (step.update report).Underway ∧
      (step.update report).tasks = TrackedTask.setStatus step.tasks task.taskId status := by
  have taken := update_of_tracked underway.distinct member reported
    (underway.unfinished member starting) (underway.resolved task member) moves
  rw [taken]
  have occupied : TrackedTask.setStatus step.tasks task.taskId status ≠ [] := by
    rw [TrackedTask.setStatus, Ne, List.map_eq_nil_iff]
    exact underway.occupied
  refine ⟨⟨occupied, ?_, ?_, ?_⟩, rfl⟩
  · rw [settle_tasks, TrackedTask.map_taskId_setStatus]
    exact underway.distinct
  · intro moved inside
    obtain ⟨held, inStep, same⟩ := TrackedTask.mem_setStatus_iff.mp inside
    have descriptor : moved.descriptor = held.descriptor := by
      rw [← same]
      split <;> rfl
    have resolved := underway.resolved held inStep
    rw [TrackedTask.taskId, ← descriptor] at resolved
    exact resolved
  · rw [settle_status, derivedStatus_of_tasks occupied]
    exact Status.aggregate_previous (by simpa using occupied) _ _

/-- Both reports on one task: the first moves nothing, the second settles the task. -/
theorem said (underway : step.Underway) (member : task ∈ step.tasks)
    (starting : task.status = .starting) (fails : Bool) :
    ((Cluster.said task.descriptor fails).foldl Step.update step).Underway ∧
      ((Cluster.said task.descriptor fails).foldl Step.update step).tasks =
        TrackedTask.setStatus step.tasks task.taskId (Cluster.verdict fails) := by
  obtain ⟨staged, tasks⟩ := underway.update member starting
    (rfl : (TaskReport.new task.taskId .staging).taskId = task.taskId) rfl
  have still : task ∈ (step.update (TaskReport.new task.taskId .staging)).tasks := by
    rw [tasks]
    refine TrackedTask.mem_setStatus_iff.mpr ⟨task, member, ?_⟩
    rw [if_pos rfl, ← starting]
    rfl
  have outcome : (if fails then Cluster.failure task.descriptor
      else Cluster.success task.descriptor).taskId = task.taskId :=
    Cluster.taskId_of_said fails (List.mem_cons_of_mem _ List.mem_cons_self)
  obtain ⟨settled, last⟩ := staged.update still starting outcome
    (Cluster.statusAfter_outcome task.descriptor fails)
  rw [tasks, TrackedTask.setStatus_setStatus] at last
  exact ⟨settled, last⟩

/-- After all reports of a look, exactly the noticed tasks have their verdict. -/
theorem answers {step : Step} (underway : step.Underway) (fails : TaskId → Bool)
    (noticed : List TrackedTask) (distinct : (noticed.map TrackedTask.taskId).Nodup)
    (starting : ∀ task ∈ noticed, task.status = .starting)
    (placed : ∀ task ∈ noticed,
      task ∈ step.tasks ∨ ∀ tracked ∈ step.tasks, tracked.taskId ≠ task.taskId) :
    let reports := noticed.flatMap fun task =>
      Cluster.said task.descriptor (fails task.taskId)
    (reports.foldl Step.update step).Underway ∧
      (reports.foldl Step.update step).tasks = step.tasks.map fun task =>
        if task.taskId ∈ noticed.map TrackedTask.taskId then
          task.withStatus (Cluster.verdict (fails task.taskId))
        else task := by
  -- what is said of one task moves that task only, so that the others are still starting
  induction noticed generalizing step with
  | nil =>
      refine ⟨underway, ?_⟩
      simp
  | cons first rest ih =>
      rw [List.map_cons, List.nodup_cons] at distinct
      have later : ∀ task ∈ rest, task.taskId ≠ first.taskId := by
        intro task member same
        exact distinct.1 (same ▸ List.mem_map_of_mem member)
      simp only [List.flatMap_cons, List.foldl_append]
      rcases placed first List.mem_cons_self with inStep | foreign
      · obtain ⟨told, tasks⟩ := underway.said inStep (starting first List.mem_cons_self)
          (fails first.taskId)
        obtain ⟨last, settled⟩ := ih told distinct.2
          (fun task member => starting task (List.mem_cons_of_mem _ member)) (by
            intro task member
            rw [tasks]
            rcases placed task (List.mem_cons_of_mem _ member) with held | absent
            · left
              refine TrackedTask.mem_setStatus_iff.mpr ⟨task, held, ?_⟩
              rw [if_neg (later task member)]
            · right
              intro tracked moved
              obtain ⟨old, inOld, same⟩ := TrackedTask.mem_setStatus_iff.mp moved
              have kept : tracked.taskId = old.taskId := by
                rw [← same]
                split <;> rfl
              rw [kept]
              exact absent old inOld)
        refine ⟨last, ?_⟩
        rw [settled, tasks, TrackedTask.setStatus, List.map_map]
        apply List.map_congr_left
        intro task _
        rw [Function.comp_apply]
        by_cases here : task.taskId = first.taskId
        · have passed : first.taskId ∉ rest.map TrackedTask.taskId := distinct.1
          rw [if_pos here, TrackedTask.taskId_withStatus, here, if_neg passed,
            List.map_cons, if_pos List.mem_cons_self]
        · rw [if_neg here]
          simp only [List.map_cons, List.mem_cons, here, false_or]
      · have same : (Cluster.said first.descriptor (fails first.taskId)).foldl
            Step.update step = step := by
          apply foldl_update_of_untracked
          intro report member tracked inStep
          rw [Cluster.taskId_of_said _ member]
          exact foreign tracked inStep
        rw [same]
        obtain ⟨last, settled⟩ := ih underway distinct.2
          (fun task member => starting task (List.mem_cons_of_mem _ member))
          (fun task member => placed task (List.mem_cons_of_mem _ member))
        refine ⟨last, ?_⟩
        rw [settled]
        apply List.map_congr_left
        intro task member
        have apart : task.taskId ≠ first.taskId := foreign task member
        simp only [List.map_cons, List.mem_cons, apart, false_or]

end Underway

end Step

end Rollout
