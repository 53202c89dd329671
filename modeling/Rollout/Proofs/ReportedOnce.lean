import Mathlib.Data.List.Induction
import Rollout.Proofs.Plan.Tracking
import Rollout.Proofs.Rehearsal.Answers
import Rollout.Proofs.Rehearsal.Launching
import Rollout.Proofs.Step.Histories

/-! What the simulated cluster reports over a whole history, with looks at the plan between any
operations.  It remembers the ids that it has spoken of and the names that still have to fail, so
that every task is reported by one pair, when it is first seen starting. -/

namespace Rollout

namespace Cluster

/-! ### The record of a cluster -/

/-- The tasks that a cluster has spoken of, in order, each with whether it failed. -/
structure Told (failing : List String) (cluster : Cluster) (reports : List TaskReport)
    (told : List (TaskDescriptor × Bool)) : Prop where
  pairs : reports = told.flatMap fun entry => said entry.1 entry.2
  reported : ∀ id, id ∈ cluster.reported ↔ id ∈ told.map (·.1.taskId)
  distinct : (told.map (·.1.taskId)).Nodup
  pending : ∀ name, name ∈ cluster.failing ↔ name ∈ failing ∧ name ∉ told.map (·.1.name)
  fails : ∀ before entry after, told = before ++ entry :: after →
    (entry.2 = true ↔ entry.1.name ∈ failing ∧ entry.1.name ∉ before.map (·.1.name))

variable {failing : List String} {cluster : Cluster} {reports : List TaskReport}
  {told : List (TaskDescriptor × Bool)}

theorem Told.observe (known : Told failing cluster reports told) {task : TrackedTask}
    (noticed : cluster.notices task = true) :
    Told failing (cluster.observe task).2 (reports ++ (cluster.observe task).1)
      (told ++ [(task.descriptor, cluster.failing.contains task.descriptor.name)]) := by
  obtain ⟨said, reported, fails⟩ := observe_of_noticed noticed
  obtain ⟨_, unknown⟩ := notices_iff.mp noticed
  constructor
  · rw [known.pairs, said, List.flatMap_append, List.flatMap_singleton]
  · intro id
    rw [reported, List.mem_cons, known.reported, List.map_append, List.mem_append, or_comm,
      List.map_singleton, List.mem_singleton]
    rfl
  · rw [List.map_append, List.nodup_append]
    refine ⟨known.distinct, List.pairwise_singleton _ _, ?_⟩
    intro id member other last equal
    have here : id = task.taskId := equal.trans (List.mem_singleton.mp last)
    rw [here, ← known.reported] at member
    exact unknown member
  · intro name
    rw [fails, known.pending, List.map_append, List.mem_append, not_or, and_assoc]
    simp
  · intro before entry after split
    rcases concat_eq_append_cons_iff.mp split with ⟨rfl, rfl, _⟩ | ⟨inner, earlier, _⟩
    · rw [List.contains_iff_mem, known.pending]
    · exact known.fails before entry inner earlier

/-- After a look every starting task is in the record, and only such tasks have come to it. -/
theorem Told.observeAll (known : Told failing cluster reports told) (tasks : List TrackedTask) :
    ∃ more, Told failing (cluster.observeAll tasks).2
        (reports ++ (cluster.observeAll tasks).1) (told ++ more) ∧
      (∀ entry ∈ more, ∃ task ∈ tasks, task.status = .starting ∧ task.descriptor = entry.1) ∧
      ∀ task ∈ tasks, task.status = .starting → task.taskId ∈ (told ++ more).map (·.1.taskId) := by
  induction tasks generalizing cluster reports told with
  | nil =>
      refine ⟨[], ?_, ?_, ?_⟩
      · simpa [Cluster.observeAll] using known
      · intro entry impossible
        cases impossible
      · intro task impossible
        cases impossible
  | cons task rest ih =>
      cases noticed : cluster.notices task with
      | false =>
          obtain ⟨more, still, new, all⟩ := ih known
          rw [observeAll_cons_of_unnoticed noticed]
          refine ⟨more, still, ?_, ?_⟩
          · intro entry member
            obtain ⟨other, inRest, found⟩ := new entry member
            exact ⟨other, List.mem_cons_of_mem _ inRest, found⟩
          · intro other member starting
            rcases List.mem_cons.mp member with here | inRest
            · subst here
              have before := mem_reported_of_unnoticed noticed starting
              rw [List.map_append]
              exact List.mem_append_left _ ((known.reported _).mp before)
            · exact all other inRest starting
      | true =>
          obtain ⟨more, still, new, all⟩ := ih (known.observe noticed)
          simp only [List.append_assoc, List.singleton_append] at still all
          refine ⟨_ :: more, still, ?_, ?_⟩
          · intro entry member
            rcases List.mem_cons.mp member with here | later
            · exact ⟨task, List.mem_cons_self, (notices_iff.mp noticed).1, by rw [here]⟩
            · obtain ⟨other, inRest, found⟩ := new entry later
              exact ⟨other, List.mem_cons_of_mem _ inRest, found⟩
          · intro other member starting
            rcases List.mem_cons.mp member with here | inRest
            · rw [here, List.map_append, List.map_cons]
              exact List.mem_append_right _ List.mem_cons_self
            · exact all other inRest starting

/-! ### Reading the record -/

end Cluster

/-! ### Histories with looks -/

/-- The reports on everything that was launched since the last look, which comes upon the
tracked tasks of the whole plan in any order. -/
def Cluster.look (cluster : Cluster) (arrangement : Arrangement) (plan : Plan Step) :
    List TaskReport × Cluster :=
  cluster.observeAll (arrangement.arrange (plan.steps.flatMap (·.tasks)))

/-- The cluster of a rehearsal has such a look, whatever order the steps show. -/
theorem Cluster.exists_look_eq_reports (cluster : Cluster) (arrangement : Arrangement)
    (plan : Plan Step) :
    ∃ order, cluster.look order plan = cluster.reports arrangement plan := by
  let shown := plan.steps.flatMap (Step.trackedTasks arrangement)
  let held := plan.steps.flatMap (·.tasks)
  refine ⟨⟨fun tasks => if tasks = held then shown else tasks, fun tasks => ?_⟩, ?_⟩
  · split
    · next same =>
      rw [same]
      exact plan.tracked_perm arrangement
    · exact .refl tasks
  · exact congrArg cluster.observeAll (if_pos rfl)

/-- A plan in operation, the cluster that looks at it, and all that the cluster has reported. -/
structure Watch (σ : Type) where
  session : Session σ
  cluster : Cluster
  reports : List TaskReport

namespace Watch

variable {σ : Type}

inductive Event (σ : Type) where
  | operate (operation : Operation σ)
  | look (arrangement : Arrangement)

def start (plan : Plan Step) (evaluator : σ) (failing : List String) : Watch σ :=
  ⟨⟨plan, evaluator⟩, .new failing, []⟩

def next (watch : Watch σ) : Event σ → Watch σ
  | .operate operation => { watch with session := watch.session.perform operation }
  | .look arrangement =>
      let seen := watch.cluster.look arrangement watch.session.plan
      { watch with cluster := seen.2, reports := watch.reports ++ seen.1 }

def run (watch : Watch σ) (events : List (Event σ)) : Watch σ :=
  events.foldl next watch

def Event.operation? : Event σ → Option (Operation σ)
  | .operate operation => some operation
  | .look _ => none

def launched (watch : Watch σ) (events : List (Event σ)) : List TaskId :=
  watch.session.launched (events.filterMap Event.operation?)

def Starting (watch : Watch σ) (task : TaskDescriptor) : Prop :=
  ∃ tracked ∈ watch.session.plan.steps.flatMap (·.tasks),
    tracked.status = .starting ∧ tracked.descriptor = task

theorem run_concat (watch : Watch σ) (events : List (Event σ)) (last : Event σ) :
    watch.run (events ++ [last]) = (watch.run events).next last := by
  rw [run, List.foldl_append]
  rfl

theorem session_run (watch : Watch σ) (events : List (Event σ)) :
    (watch.run events).session = watch.session.run (events.filterMap Event.operation?) := by
  induction events generalizing watch with
  | nil => rfl
  | cons event rest ih =>
      cases event with
      | operate operation => exact ih (watch.next (.operate operation))
      | look arrangement => exact ih (watch.next (.look arrangement))

theorem launched_concat (watch : Watch σ) (events : List (Event σ)) (operation : Operation σ) :
    watch.launched (events ++ [.operate operation]) =
      watch.launched events ++ (watch.run events).session.launchedBy operation := by
  rw [launched, List.filterMap_append, session_run]
  exact Session.launched_concat ..

theorem launched_concat_look (watch : Watch σ) (events : List (Event σ))
    (arrangement : Arrangement) :
    watch.launched (events ++ [.look arrangement]) = watch.launched events := by
  rw [launched, List.filterMap_append]
  exact congrArg _ (List.append_nil _)

def Sighted (watch : Watch σ) (events : List (Event σ)) (task : TaskDescriptor) : Prop :=
  ∃ before arrangement after, events = before ++ .look arrangement :: after ∧
    (watch.run before).Starting task

theorem Sighted.concat {watch : Watch σ} {events : List (Event σ)} {task : TaskDescriptor}
    (sighted : watch.Sighted events task) (last : Event σ) :
    watch.Sighted (events ++ [last]) task := by
  obtain ⟨before, arrangement, after, rfl, starting⟩ := sighted
  exact ⟨before, arrangement, after ++ [last], by rw [List.append_assoc]; rfl, starting⟩

theorem Starting.mem {watch : Watch σ} {task : TaskDescriptor} (starting : watch.Starting task)
    {tasks : List TaskDescriptor} (among : watch.session.plan.TracksAmong tasks) :
    task ∈ tasks := by
  obtain ⟨tracked, shown, _, same⟩ := starting
  obtain ⟨location, step, found, member⟩ := Plan.mem_tasks_iff.mp shown
  rw [← same]
  exact among found tracked member

/-- The record of a history, and the launched tasks that it is about. -/
structure Keeps (watch : Watch σ) (failing : List String) (events : List (Event σ))
    (told : List (TaskDescriptor × Bool)) (tasks : List TaskDescriptor) : Prop where
  record : Cluster.Told failing (watch.run events).cluster (watch.run events).reports told
  ids : tasks.map (·.taskId) = watch.launched events
  among : (watch.run events).session.plan.TracksAmong tasks
  known : ∀ entry ∈ told, entry.1 ∈ tasks
  seen : ∀ entry ∈ told, watch.Sighted events entry.1

section

variable {watch : Watch σ} {failing : List String} {events : List (Event σ)}
  {told : List (TaskDescriptor × Bool)} {tasks : List TaskDescriptor}

theorem Keeps.operate (keeps : watch.Keeps failing events told tasks)
    (operation : Operation σ) :
    ∃ new, watch.Keeps failing (events ++ [.operate operation]) told (tasks ++ new) := by
  obtain ⟨new, ids, among⟩ := Session.tracksAmong_perform keeps.among operation
  refine ⟨new, ?_, ?_, ?_, ?_, ?_⟩
  · rw [run_concat]
    exact keeps.record
  · rw [List.map_append, keeps.ids, ids, launched_concat]
  · rw [run_concat]
    exact among
  · exact fun entry member => List.mem_append_left new (keeps.known entry member)
  · exact fun entry member => (keeps.seen entry member).concat _

theorem Keeps.look (keeps : watch.Keeps failing events told tasks) (arrangement : Arrangement) :
    ∃ more, watch.Keeps failing (events ++ [.look arrangement]) (told ++ more) tasks ∧
      ∀ task, (watch.run events).Starting task →
        task.taskId ∈ (told ++ more).map (·.1.taskId) := by
  obtain ⟨more, record, new, all⟩ := keeps.record.observeAll (arrangement.arrange
    ((watch.run events).session.plan.steps.flatMap (·.tasks)))
  have starting : ∀ entry ∈ more, (watch.run events).Starting entry.1 := by
    intro entry member
    obtain ⟨tracked, arranged, starting, same⟩ := new entry member
    exact ⟨tracked, (arrangement.perm _).mem_iff.mp arranged, starting, same⟩
  refine ⟨more, ⟨?_, ?_, ?_, ?_, ?_⟩, ?_⟩
  · rw [run_concat]
    exact record
  · rw [launched_concat_look, keeps.ids]
  · rw [run_concat]
    exact keeps.among
  · intro entry member
    rcases List.mem_append.mp member with before | now
    · exact keeps.known entry before
    · exact (starting entry now).mem keeps.among
  · intro entry member
    rcases List.mem_append.mp member with before | now
    · exact (keeps.seen entry before).concat _
    · exact ⟨events, arrangement, [], rfl, starting entry now⟩
  · intro task shown
    obtain ⟨tracked, shown, starting, same⟩ := shown
    rw [← same]
    exact all tracked ((arrangement.perm _).mem_iff.mpr shown) starting

end

end Watch

namespace Plan

open Watch (Event)

end Plan

end Rollout
