import Rollout.Offer.Evaluator
import Rollout.Proofs.TaskIds

/-! What the simulated evaluator launches: all the tasks that are asked for, or none.  The first
name that the pod does not have is the error; otherwise a match takes one slot, and launches tasks
that the pod itself lists, under numbers above all that were used before.  Under fresh suffixes
such a task is found again from its id alone. -/

namespace Rollout.PodInstance

def FirstUnknown (pod : PodInstance) (names : List String) (name : String) : Prop :=
  ∃ before after, names = before ++ name :: after ∧
    (∀ earlier ∈ before, earlier ∈ pod.tasks.map (·.name)) ∧ name ∉ pod.tasks.map (·.name)

theorem firstUnknown_nil {pod : PodInstance} {name : String} : ¬ pod.FirstUnknown [] name := by
  rintro ⟨before, after, split, _⟩
  exact List.append_ne_nil_of_right_ne_nil before (List.cons_ne_nil name after) split.symm

theorem firstUnknown_cons_of_known {pod : PodInstance} {first : String}
    (known : first ∈ pod.tasks.map (·.name)) {rest : List String} {name : String} :
    pod.FirstUnknown (first :: rest) name ↔ pod.FirstUnknown rest name := by
  constructor
  · rintro ⟨before, after, split, earlier, unknown⟩
    cases before with
    | nil =>
        cases split
        exact False.elim (unknown known)
    | cons _ before =>
        cases split
        exact ⟨before, after, rfl, (List.forall_mem_cons.mp earlier).2, unknown⟩
  · rintro ⟨before, after, rfl, earlier, unknown⟩
    exact ⟨first :: before, after, rfl, List.forall_mem_cons.mpr ⟨known, earlier⟩, unknown⟩

theorem firstUnknown_cons_of_unknown {pod : PodInstance} {first : String}
    (unknown : first ∉ pod.tasks.map (·.name)) {rest : List String} {name : String} :
    pod.FirstUnknown (first :: rest) name ↔ name = first := by
  constructor
  · rintro ⟨before, after, split, earlier, _⟩
    cases before with
    | nil =>
        cases split
        rfl
    | cons _ before =>
        cases split
        exact False.elim (unknown (earlier _ List.mem_cons_self))
  · rintro rfl
    exact ⟨[], rest, rfl, List.forall_mem_nil _, unknown⟩

theorem exists_firstUnknown_iff {pod : PodInstance} {names : List String} :
    (∃ name, pod.FirstUnknown names name) ↔ ∃ name ∈ names, name ∉ pod.tasks.map (·.name) := by
  induction names with
  | nil => simp [firstUnknown_nil]
  | cons first rest ih =>
      by_cases known : first ∈ pod.tasks.map (·.name)
      · simp only [firstUnknown_cons_of_known known, ih, List.exists_mem_cons_iff, known,
          not_true_eq_false, false_or]
      · simp only [firstUnknown_cons_of_unknown known, exists_eq, true_iff]
        exact ⟨first, List.mem_cons_self, known⟩

end Rollout.PodInstance

namespace Rollout.SlotPool

def Launched (suffix : Nat → String) (pod : PodInstance) (number : Nat)
    (task : TaskDescriptor) : Prop :=
  ∃ spec, pod.task? spec.name = some spec ∧ task = descriptor pod (suffix number) spec

namespace Launched

variable {suffix : Nat → String} {pod : PodInstance} {number : Nat} {task : TaskDescriptor}

theorem taskId_eq (launched : Launched suffix pod number task) :
    task.taskId = TaskId.compose task.name (suffix number) := by
  obtain ⟨spec, _, same⟩ := launched
  rw [same]
  rfl

theorem name_ne_empty (launched : Launched suffix pod number task) : task.name ≠ "" := by
  obtain ⟨spec, _, same⟩ := launched
  rw [same]
  exact pod.taskName_ne_empty spec.name

theorem taskName?_eq (launched : Launched suffix pod number task)
    (legible : TaskId.Legible suffix) : task.taskId.taskName? = some task.name := by
  rw [launched.taskId_eq]
  exact legible.taskName?_eq launched.name_ne_empty number

theorem taskId_ne_empty (launched : Launched suffix pod number task) : task.taskId ≠ "" := by
  rw [launched.taskId_eq]
  intro empty
  have characters := congrArg String.toList empty
  simp [TaskId.compose, TaskId.separator] at characters

theorem goalOf_eq (launched : Launched suffix pod number task) :
    pod.goalOf task.name = .ok task.goal := by
  obtain ⟨spec, found, same⟩ := launched
  rw [same]
  exact pod.goalOf_eq_ok_iff.mpr ⟨spec, found, rfl, rfl⟩

/-- An id tells the number of the launch, whatever the pods are called. -/
theorem number_eq {other : PodInstance} {number' : Nat} {task' : TaskDescriptor}
    (launched : Launched suffix pod number task) (launched' : Launched suffix other number' task')
    (fresh : TaskId.Fresh suffix) (same : task.taskId = task'.taskId) : number = number' := by
  rw [launched.taskId_eq, launched'.taskId_eq] at same
  exact fresh.number_eq same

end Launched

variable {suffix : Nat → String} {pod : PodInstance}

theorem launched_of_mem_launches {names : List String} {next : Nat}
    {tasks : List Recommendation} (known : launches suffix pod next names = .ok tasks)
    {task : TaskDescriptor} (member : .launch task ∈ tasks) :
    ∃ number, next ≤ number ∧ number < next + tasks.length ∧ Launched suffix pod number task := by
  induction names generalizing next tasks with
  | nil =>
      cases known
      cases member
  | cons name rest ih =>
      rw [launches] at known
      split at known
      · cases known
      · rename_i spec found
        cases others : launches suffix pod (next + 1) rest with
        | error cause =>
            rw [others] at known
            cases known
        | ok later =>
            rw [others] at known
            cases known
            have named : pod.task? spec.name = some spec := by
              rw [PodInstance.task?_name found]
              exact found
            rw [List.length_cons]
            rcases List.mem_cons.mp member with first | inRest
            · cases first
              exact ⟨next, Nat.le_refl next, by omega, spec, named, rfl⟩
            · obtain ⟨number, above, below, launched⟩ := ih others inRest
              exact ⟨number, by omega, by omega, launched⟩

def Launches (suffix : Nat → String) (pod : PodInstance) (name : String)
    (recommendation : Recommendation) : Prop :=
  ∃ spec number, pod.task? name = some spec ∧
    recommendation = .launch (descriptor pod (suffix number) spec)

/-- A pod is launched whenever it has every task that is asked for, one launch for each
name. -/
theorem launches_of_known (suffix : Nat → String) {names : List String}
    (known : ∀ name ∈ names, name ∈ pod.tasks.map (·.name)) (next : Nat) :
    ∃ tasks, launches suffix pod next names = .ok tasks ∧
      List.Forall₂ (Launches suffix pod) names tasks := by
  induction names generalizing next with
  | nil => exact ⟨[], rfl, .nil⟩
  | cons name rest ih =>
      obtain ⟨here, others⟩ := List.forall_mem_cons.mp known
      obtain ⟨spec, found⟩ := PodInstance.exists_task?_iff.mpr here
      obtain ⟨later, launched, each⟩ := ih others (next + 1)
      refine ⟨.launch (descriptor pod (suffix next) spec) :: later, ?_,
        .cons ⟨spec, next, found, rfl⟩ each⟩
      rw [launches, found]
      simp only [launched]
      rfl

theorem exists_launch {names : List String} {tasks : List Recommendation}
    (each : List.Forall₂ (Launches suffix pod) names tasks) (asked : names ≠ []) :
    ∃ task, .launch task ∈ tasks := by
  cases each with
  | nil => exact False.elim (asked rfl)
  | cons launches _ =>
      obtain ⟨spec, number, _, rfl⟩ := launches
      exact ⟨_, List.mem_cons_self⟩

/-- The launches fail on the first name that is not known, whatever comes after it. -/
theorem launches_eq_error_iff {names : List String} {next : Nat} {cause : EvaluationError} :
    launches suffix pod next names = .error cause ↔
      ∃ name, pod.FirstUnknown names name ∧ cause = .unknownTask pod.name name := by
  induction names generalizing next with
  | nil => simp [launches, PodInstance.firstUnknown_nil]
  | cons first rest ih =>
      rw [launches]
      cases found : pod.task? first with
      | none =>
          simp only [PodInstance.firstUnknown_cons_of_unknown
            (PodInstance.task?_eq_none_iff.mp found), exists_eq_left, Except.error.injEq]
          exact eq_comm
      | some spec =>
          simp only [PodInstance.firstUnknown_cons_of_known
            (PodInstance.exists_task?_iff.mp ⟨spec, found⟩), ← @ih (next + 1)]
          cases launches suffix pod (next + 1) rest with
          | error other => simp [bind, Except.bind]
          | ok later => simp [bind, Except.bind, pure, Except.pure]

inductive Outcome (suffix : Nat → String) (requirement : Requirement) (pool : SlotPool) :
    Evaluation × SlotPool → Prop
  | failed {cause : EvaluationError}
      (unknown : launches suffix requirement.podInstance (pool.launched + 1)
        requirement.tasksToLaunch = .error cause) :
      Outcome suffix requirement pool (.error cause, pool)
  | unmatched {tasks : List Recommendation}
      (known : launches suffix requirement.podInstance (pool.launched + 1)
        requirement.tasksToLaunch = .ok tasks)
      (exhausted : pool.free = some 0) :
      Outcome suffix requirement pool (.ok [], pool)
  | matched {tasks : List Recommendation}
      (known : launches suffix requirement.podInstance (pool.launched + 1)
        requirement.tasksToLaunch = .ok tasks)
      (available : pool.free ≠ some 0) :
      Outcome suffix requirement pool (.ok (reservation requirement.podInstance :: tasks),
        ⟨pool.free.map (· - 1), pool.launched + tasks.length⟩)

theorem claim?_eq (pool : SlotPool) : pool.claim? =
    if pool.free = some 0 then none else some ⟨pool.free.map (· - 1), pool.launched⟩ := by
  obtain ⟨free, launched⟩ := pool
  match free with
  | none => rfl
  | some 0 => rfl
  | some (slots + 1) => simp [claim?]

theorem outcome_evaluate (suffix : Nat → String) (requirement : Requirement) (pool : SlotPool) :
    Outcome suffix requirement pool (evaluate suffix requirement pool) := by
  rw [evaluate]
  cases answer : launches suffix requirement.podInstance (pool.launched + 1)
      requirement.tasksToLaunch with
  | error cause => exact .failed answer
  | ok tasks =>
      simp only [claim?_eq]
      by_cases exhausted : pool.free = some 0
      · rw [if_pos exhausted]
        exact .unmatched answer exhausted
      · rw [if_neg exhausted]
        exact .matched answer exhausted

theorem evaluate_launched_le (requirement : Requirement) (pool : SlotPool) :
    pool.launched ≤ (evaluate suffix requirement pool).2.launched := by
  have outcome := outcome_evaluate suffix requirement pool
  generalize evaluate suffix requirement pool = result at outcome ⊢
  cases outcome with
  | failed => exact Nat.le_refl _
  | unmatched => exact Nat.le_refl _
  | matched => exact Nat.le_add_right _ _

/-- What a match launches are tasks of the pod, under numbers that were never used. -/
theorem launched_of_evaluate {requirement : Requirement} {pool : SlotPool}
    {recommendations : List Recommendation}
    (answer : (evaluate suffix requirement pool).1 = .ok recommendations)
    {task : TaskDescriptor} (member : .launch task ∈ recommendations) :
    ∃ number, pool.launched < number ∧
      number ≤ (evaluate suffix requirement pool).2.launched ∧
      Launched suffix requirement.podInstance number task := by
  have outcome := outcome_evaluate suffix requirement pool
  generalize evaluate suffix requirement pool = result at outcome answer ⊢
  cases outcome with
  | failed => cases answer
  | unmatched =>
      cases answer
      cases member
  | @matched tasks known =>
      cases answer
      have inTasks : .launch task ∈ tasks := by
        rcases List.mem_cons.mp member with reserved | inTasks
        · cases reserved
        · exact inTasks
      obtain ⟨number, above, below, launched⟩ := launched_of_mem_launches known inTasks
      refine ⟨number, by omega, ?_, launched⟩
      simp only
      omega

theorem evaluate_of_known (suffix : Nat → String) (requirement : Requirement) {pool : SlotPool}
    (available : pool.free ≠ some 0)
    (known : ∀ name ∈ requirement.tasksToLaunch,
      name ∈ requirement.podInstance.tasks.map (·.name)) :
    ∃ tasks, evaluate suffix requirement pool =
        (.ok (reservation requirement.podInstance :: tasks),
          ⟨pool.free.map (· - 1), pool.launched + tasks.length⟩) ∧
      List.Forall₂ (Launches suffix requirement.podInstance) requirement.tasksToLaunch tasks := by
  obtain ⟨tasks, launched, each⟩ := launches_of_known suffix known (pool.launched + 1)
  refine ⟨tasks, ?_, each⟩
  rw [evaluate]
  simp only [launched, claim?_eq, if_neg available]

theorem evaluate_of_exhausted (suffix : Nat → String) (requirement : Requirement)
    {pool : SlotPool} (exhausted : pool.free = some 0)
    (known : ∀ name ∈ requirement.tasksToLaunch,
      name ∈ requirement.podInstance.tasks.map (·.name)) :
    evaluate suffix requirement pool = (.ok [], pool) := by
  obtain ⟨tasks, launched, _⟩ := launches_of_known suffix known (pool.launched + 1)
  rw [evaluate]
  simp only [launched, claim?_eq, if_pos exhausted]

theorem evaluate_free {requirement : Requirement} {pool : SlotPool} (free : pool.free = none) :
    (evaluate suffix requirement pool).2.free = none := by
  have outcome := outcome_evaluate suffix requirement pool
  generalize evaluate suffix requirement pool = result at outcome ⊢
  cases outcome with
  | failed => exact free
  | unmatched => exact free
  | matched => rw [free, Option.map_none]

end Rollout.SlotPool
