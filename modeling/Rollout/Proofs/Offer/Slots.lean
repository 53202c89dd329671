import Mathlib.Data.List.Forall2
import Rollout.Proofs.Offer.Launches

/-! The slots of a pool, in every history of evaluations and releases.  A match takes one slot, a
release gives one back, and nothing else touches them; so the free slots and the matches together
are the slots at the start and the releases.  An evaluation is all or nothing: it fails before it
looks for a slot, it finds none, or it takes one and launches every task. -/

namespace Rollout

namespace PodInstance

def FirstNamed (pod : PodInstance) (name : String) (spec : TaskSpec) : Prop :=
  ∃ before after, pod.tasks = before ++ spec :: after ∧ spec.name = name ∧
    ∀ other ∈ before, other.name ≠ name

theorem firstNamed_of_task? {pod : PodInstance} {name : String} {spec : TaskSpec}
    (found : pod.task? name = some spec) : pod.FirstNamed name spec := by
  obtain ⟨_, before, after, split, earlier⟩ := List.find?_eq_some_iff_append.mp found
  refine ⟨before, after, split, task?_name found, ?_⟩
  intro other member
  simpa using earlier other member

/-- What is launched for a task of a pod: its goal and its readiness check, under the full
name, which can be told from the id alone. -/
structure LaunchesAs (pod : PodInstance) (spec : TaskSpec) (task : TaskDescriptor) : Prop where
  name : task.name = pod.taskName spec.name
  decoded : task.taskId.taskName? = some (pod.taskName spec.name)
  goal : task.goal = spec.goal
  readinessCheck : task.readinessCheck = spec.readinessCheck

end PodInstance

namespace Evaluation

def matched : Evaluation → Bool
  | .ok (_ :: _) => true
  | _ => false

end Evaluation

namespace SlotPool

inductive Call where
  | evaluate (requirement : Requirement)
  | release

def Call.releases : Call → Bool
  | .evaluate _ => false
  | .release => true

/-- The outcomes of the evaluations among some calls, and the pool after the last call. -/
def serve (suffix : Nat → String) (pool : SlotPool) : List Call → List Evaluation × SlotPool
  | [] => ([], pool)
  | .evaluate requirement :: rest =>
      let (outcome, next) := evaluate suffix requirement pool
      let (outcomes, last) := serve suffix next rest
      (outcome :: outcomes, last)
  | .release :: rest => serve suffix pool.release rest

variable {suffix : Nat → String}

theorem serve_append (pool : SlotPool) (first second : List Call) :
    serve suffix pool (first ++ second) =
      ((serve suffix pool first).1 ++ (serve suffix (serve suffix pool first).2 second).1,
        (serve suffix (serve suffix pool first).2 second).2) := by
  induction first generalizing pool with
  | nil => rfl
  | cons call rest ih =>
      cases call with
      | evaluate requirement =>
          simp only [List.cons_append, serve, ih]
      | release => exact ih pool.release

theorem evaluate_balance (suffix : Nat → String) (requirement : Requirement) {pool : SlotPool}
    {slots : Nat} (limited : pool.free = some slots) :
    ∃ left, (evaluate suffix requirement pool).2.free = some left ∧
      left + (if Evaluation.matched (evaluate suffix requirement pool).1 then 1 else 0) =
        slots := by
  have outcome := outcome_evaluate suffix requirement pool
  generalize evaluate suffix requirement pool = result at outcome ⊢
  cases outcome with
  | failed => exact ⟨slots, limited, rfl⟩
  | unmatched => exact ⟨slots, limited, rfl⟩
  | matched _ available =>
      have positive : slots ≠ 0 := by
        intro none
        rw [none] at limited
        exact available limited
      refine ⟨slots - 1, by rw [limited, Option.map_some], ?_⟩
      simp only [Evaluation.matched, if_true]
      omega

/-- In every history the slots are accounted for. -/
theorem serve_balance (suffix : Nat → String) (calls : List Call) {pool : SlotPool} {slots : Nat}
    (limited : pool.free = some slots) :
    ∃ left, (serve suffix pool calls).2.free = some left ∧
      left + (serve suffix pool calls).1.countP Evaluation.matched =
        slots + calls.countP Call.releases := by
  induction calls generalizing pool slots with
  | nil => exact ⟨slots, limited, rfl⟩
  | cons call rest ih =>
      cases call with
      | evaluate requirement =>
          obtain ⟨between, still, taken⟩ := evaluate_balance suffix requirement limited
          obtain ⟨left, last, balance⟩ := ih still
          refine ⟨left, last, ?_⟩
          simp only [serve, List.countP_cons, Call.releases, Bool.false_eq_true, if_false]
          omega
      | release =>
          have given : pool.release.free = some (slots + 1) := by
            rw [release, limited, Option.map_some]
          obtain ⟨left, last, balance⟩ := ih given
          refine ⟨left, last, ?_⟩
          simp only [serve, List.countP_cons, Call.releases, if_true]
          omega

structure AllOrNothing (suffix : Nat → String) (requirement : Requirement) (pool : SlotPool) :
    Prop where
  fails : (∃ cause, (evaluate suffix requirement pool).1 = .error cause) ↔
    ∃ name ∈ requirement.tasksToLaunch, name ∉ requirement.podInstance.tasks.map (·.name)
  /-- The error names the first task that is not known. -/
  cause : ∀ cause, (evaluate suffix requirement pool).1 = .error cause ↔
    ∃ name, requirement.podInstance.FirstUnknown requirement.tasksToLaunch name ∧
      cause = .unknownTask requirement.podInstance.name name
  failed : ∀ cause, (evaluate suffix requirement pool).1 = .error cause →
    (evaluate suffix requirement pool).2 = pool
  unmatched : (∀ name ∈ requirement.tasksToLaunch,
      name ∈ requirement.podInstance.tasks.map (·.name)) →
    ((evaluate suffix requirement pool).1 = .ok [] ↔ pool.free = some 0)
  exhausted : pool.free = some 0 → (evaluate suffix requirement pool).2 = pool
  /-- One slot is taken, and there is one launch for each name. -/
  matched : (∀ name ∈ requirement.tasksToLaunch,
      name ∈ requirement.podInstance.tasks.map (·.name)) →
    ∀ slots, pool.free = some (slots + 1) →
      (evaluate suffix requirement pool).2.free = some slots ∧
      ∃ launches, (evaluate suffix requirement pool).1 =
          .ok (.reserve (requirement.podInstance.name ++ "-resources")
            requirement.podInstance.name :: launches) ∧
        List.Forall₂ (fun name recommendation => ∃ spec task,
            requirement.podInstance.FirstNamed name spec ∧ recommendation = .launch task ∧
              requirement.podInstance.LaunchesAs spec task)
          requirement.tasksToLaunch launches

theorem Launches.launchesAs {pod : PodInstance} {name : String} {recommendation : Recommendation}
    (launches : Launches suffix pod name recommendation) (legible : TaskId.Legible suffix) :
    ∃ spec task, pod.FirstNamed name spec ∧ recommendation = .launch task ∧
      pod.LaunchesAs spec task := by
  obtain ⟨spec, number, found, rfl⟩ := launches
  exact ⟨spec, _, PodInstance.firstNamed_of_task? found, rfl, {
    name := rfl
    decoded := legible.taskName?_eq (pod.taskName_ne_empty spec.name) number
    goal := rfl
    readinessCheck := rfl }⟩

theorem evaluate_eq_error_iff {requirement : Requirement} {pool : SlotPool}
    {cause : EvaluationError} :
    (evaluate suffix requirement pool).1 = .error cause ↔
      ∃ name, requirement.podInstance.FirstUnknown requirement.tasksToLaunch name ∧
        cause = .unknownTask requirement.podInstance.name name := by
  have outcome := outcome_evaluate suffix requirement pool
  generalize evaluate suffix requirement pool = result at outcome ⊢
  rw [← @launches_eq_error_iff suffix requirement.podInstance requirement.tasksToLaunch
    (pool.launched + 1)]
  cases outcome with
  | failed unknown => simp [unknown]
  | unmatched known => simp [known]
  | matched known => simp [known]

theorem exists_evaluate_eq_error_iff {requirement : Requirement} {pool : SlotPool} :
    (∃ cause, (evaluate suffix requirement pool).1 = .error cause) ↔
      ∃ name ∈ requirement.tasksToLaunch,
        name ∉ requirement.podInstance.tasks.map (·.name) := by
  simp only [evaluate_eq_error_iff, ← PodInstance.exists_firstUnknown_iff]
  constructor
  · rintro ⟨_, name, first, _⟩
    exact ⟨name, first⟩
  · rintro ⟨name, first⟩
    exact ⟨_, name, first, rfl⟩

theorem allOrNothing_of_legible (legible : TaskId.Legible suffix) (requirement : Requirement)
    (pool : SlotPool) : AllOrNothing suffix requirement pool := by
  have outcome := outcome_evaluate suffix requirement pool
  refine {
    fails := exists_evaluate_eq_error_iff
    cause := fun _ => evaluate_eq_error_iff
    failed := ?_, unmatched := ?_, exhausted := ?_, matched := ?_ }
  · intro cause failed
    generalize evaluate suffix requirement pool = result at outcome failed ⊢
    cases outcome with
    | failed => rfl
    | unmatched => rfl
    | matched => cases failed
  · intro known
    constructor
    · intro unmatched
      by_contra available
      obtain ⟨tasks, same, _⟩ := evaluate_of_known suffix requirement available known
      rw [same] at unmatched
      cases unmatched
    · intro exhausted
      rw [evaluate_of_exhausted suffix requirement exhausted known]
  · intro none
    generalize evaluate suffix requirement pool = result at outcome ⊢
    cases outcome with
    | failed => rfl
    | unmatched => rfl
    | matched _ available => exact False.elim (available none)
  · intro known slots free
    have available : pool.free ≠ some 0 := by simp [free]
    obtain ⟨tasks, same, each⟩ := evaluate_of_known suffix requirement available known
    rw [same, free]
    exact ⟨rfl, tasks, rfl, each.imp fun _ _ launches => launches.launchesAs legible⟩

end SlotPool

end Rollout
