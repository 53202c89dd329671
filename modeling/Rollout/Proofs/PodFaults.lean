import Mathlib.Data.Finset.Card
import Rollout.Plan.Build

/-! The faults of a pod, counted without going through its tasks in order.  One pass over the
tasks finds a repeated name by the names before it; together it finds as many as there are tasks
beyond the distinct names.  So the list is empty exactly when nothing is wrong. -/

namespace Rollout

namespace TaskSection

/-- A readiness check on a task that is to finish. -/
def ChecksInVain (task : TaskSection) : Prop :=
  task.goal = some .finished ∧ task.readinessCheck ≠ none

instance (task : TaskSection) : Decidable task.ChecksInVain :=
  inferInstanceAs (Decidable (_ ∧ _))

theorem checksInVain_iff_spec {task : TaskSection} :
    task.ChecksInVain ↔ task.spec.goal = .finished ∧ task.spec.readinessCheck.isSome := by
  have goals : task.goal = some .finished ↔ task.goal.getD .initial = .finished := by
    cases task.goal with
    | none => simp [Goal.initial]
    | some goal => simp
  rw [ChecksInVain, goals, Option.isSome_iff_ne_none]
  rfl

end TaskSection

namespace PodSection

variable {pod : PodSection}

/-- The number of faults of a pod: one for the lack of tasks, one for each name beyond the
distinct ones, and one for each check that is in vain. -/
def faultCount (pod : PodSection) : Nat :=
  (if pod.tasks = [] then 1 else 0) +
    (pod.tasks.length - (pod.tasks.map (·.name)).toFinset.card) +
    pod.tasks.countP fun task => task.ChecksInVain

structure Sound (pod : PodSection) : Prop where
  occupied : pod.tasks ≠ []
  distinct : (pod.tasks.map (·.name)).Nodup
  checked : ∀ task ∈ pod.tasks, ¬ task.ChecksInVain

/-- A name that was not seen counts once, and is seen from then on. -/
theorem card_insert_sdiff (name : String) (names seen : Finset String) :
    (insert name names \ seen).card =
      (if name ∈ seen then 0 else 1) + (names \ insert name seen).card := by
  by_cases occurred : name ∈ seen
  · rw [Finset.insert_sdiff_of_mem names occurred, Finset.insert_eq_of_mem occurred,
      if_pos occurred, Nat.zero_add]
  · have apart : insert name names \ seen = insert name (names \ insert name seen) := by
      ext other
      by_cases same : other = name
      · simp [same, occurred]
      · simp [same]
    rw [apart, Finset.card_insert_of_notMem (by simp), if_neg occurred, Nat.add_comm]

/-- Each task adds a fault for its name, or a name that was not seen before. -/
theorem length_taskFaults_add_card (podType : String) (seen : List String)
    (tasks : List TaskSection) :
    (taskFaults podType seen (tasks.map TaskSection.spec)).length +
        ((tasks.map (·.name)).toFinset \ seen.toFinset).card =
      tasks.length + tasks.countP fun task => task.ChecksInVain := by
  induction tasks generalizing seen with
  | nil => simp [taskFaults]
  | cons task rest ih =>
      have repeats : (if seen.contains task.spec.name then
          [repeatedTaskText podType task.spec.name] else []).length =
          if task.name ∈ seen.toFinset then 1 else 0 := by
        simp only [List.contains_iff_mem, List.mem_toFinset, TaskSection.spec]
        split <;> rfl
      have checks : (if task.spec.goal = .finished ∧ task.spec.readinessCheck.isSome then
          [idleCheckText podType task.spec.name] else []).length =
          if task.ChecksInVain then 1 else 0 := by
        simp only [← TaskSection.checksInVain_iff_spec]
        split <;> rfl
      have later := ih (task.name :: seen)
      rw [List.toFinset_cons] at later
      rw [List.map_cons, List.map_cons, taskFaults, List.length_append, List.length_append,
        repeats, checks, List.toFinset_cons, card_insert_sdiff, List.length_cons,
        List.countP_cons]
      simp only [decide_eq_true_eq]
      change _ + (taskFaults podType (task.name :: seen) _).length + _ = _
      by_cases occurred : task.name ∈ seen.toFinset
      · rw [if_pos occurred, if_pos occurred]
        omega
      · rw [if_neg occurred, if_neg occurred]
        omega

theorem length_faults (pod : PodSection) : pod.faults.length = pod.faultCount := by
  have counted := length_taskFaults_add_card pod.podType [] pod.tasks
  rw [List.toFinset_nil, Finset.sdiff_empty] at counted
  have bounded := List.toFinset_card_le (pod.tasks.map (·.name))
  rw [List.length_map] at bounded
  have lacking : (if pod.tasks.isEmpty then [noTasksText pod.podType] else []).length =
      if pod.tasks = [] then 1 else 0 := by
    simp only [List.isEmpty_iff]
    split <;> rfl
  rw [faults, List.length_append, lacking, faultCount, taskSpecs]
  omega

theorem faultCount_eq_zero_iff : pod.faultCount = 0 ↔ pod.Sound := by
  have lacking : (if pod.tasks = [] then 1 else 0) = 0 ↔ pod.tasks ≠ [] := by
    split <;> simp [*]
  have bounded := List.toFinset_card_le (pod.tasks.map (·.name))
  have distinct : ∀ names : List String, names.toFinset.card = names.length ↔ names.Nodup :=
    fun names => Multiset.toFinset_card_eq_card_iff_nodup (m := Multiset.ofList names)
  rw [List.length_map] at bounded
  have names : pod.tasks.length - (pod.tasks.map (·.name)).toFinset.card = 0 ↔
      (pod.tasks.map (·.name)).Nodup := by
    rw [← distinct, List.length_map]
    omega
  rw [faultCount, Nat.add_eq_zero_iff, Nat.add_eq_zero_iff, lacking, names, List.countP_eq_zero]
  simp only [decide_eq_true_eq]
  constructor
  · rintro ⟨⟨occupied, distinct⟩, checked⟩
    exact ⟨occupied, distinct, checked⟩
  · rintro ⟨occupied, distinct, checked⟩
    exact ⟨⟨occupied, distinct⟩, checked⟩

theorem faults_eq_nil_iff : pod.faults = [] ↔ pod.Sound := by
  rw [← faultCount_eq_zero_iff, ← length_faults, List.length_eq_zero_iff]

end PodSection

end Rollout
