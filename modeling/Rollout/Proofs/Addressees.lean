import Rollout.Proofs.Broadcast
import Rollout.Proofs.Plan.Built
import Rollout.Proofs.Plan.Operations
import Rollout.Proofs.PodNames

/-! Whom a report concerns.  The id of a task holds its full name only, so a report reaches every
step that has a task of this name.  In a valid file that is one step, unless the type of a pod
goes on from the name of an instance of another pod; then a task of the first can be named like a
task of the second, and both steps are reached. -/

namespace Rollout

namespace PodInstance

def fullNames (pod : PodInstance) : List String :=
  (pod.tasks.map (·.name)).map pod.taskName

theorem owns_iff_mem {pod : PodInstance} {fullName : String} :
    pod.owns fullName = true ↔ fullName ∈ pod.fullNames := by
  simp [owns, fullNames]

theorem nodup_fullNames {pod : PodInstance} (distinct : (pod.tasks.map (·.name)).Nodup) :
    pod.fullNames.Nodup := by
  refine List.pairwise_map.mpr (List.Pairwise.imp ?_ distinct)
  intro task task' different same
  exact different (taskName_inj rfl same).2

end PodInstance

def TaskReport.Concerns (report : TaskReport) (fullName : String) : Prop :=
  ∃ suffix, suffix ≠ "" ∧ '_' ∉ suffix.toList ∧ report.taskId = TaskId.compose fullName suffix

/-- No pod type is the name of an instance, or goes on from it with a dash. -/
def ServiceFile.Separated (file : ServiceFile) : Prop :=
  ∀ pod ∈ file.pods, ∀ podInstance ∈ pod.instances, ∀ other ∈ file.pods,
    other.podType ≠ podInstance.name ∧ ∀ more, other.podType ≠ podInstance.name ++ "-" ++ more

namespace Plan

def fullNames (plan : Plan Step) : List String :=
  plan.steps.flatMap (·.requirement.podInstance.fullNames)

/-- No task of a step elsewhere overlaps with this one. -/
def Unmistakable (plan : Plan Step) (location : Location) (pod : PodInstance) (task : String) :
    Prop :=
  ∀ other step, other ≠ location → plan.stepAt? other = some step →
    ∀ spec ∈ step.requirement.podInstance.tasks,
      ¬ (pod.Overlaps task step.requirement.podInstance spec.name ∨
        step.requirement.podInstance.Overlaps spec.name pod task)

theorem reach_of_concerns {plan : Plan Step} {report : TaskReport} {fullName : String}
    (concerns : report.Concerns fullName) (named : fullName ≠ "") :
    plan.reach report = (plan.steps.filter (·.owns fullName)).length := by
  obtain ⟨suffix, ended, plain, id⟩ := concerns
  have resolved : report.taskId.resolve = .ok fullName := by
    rw [id]
    exact TaskId.resolve_eq_ok_iff.mpr (TaskId.taskName?_compose named ended plain)
  unfold reach owners
  rw [resolved]
  rfl

section

variable {file : ServiceFile} {built reached : Plan Step}

theorem taskName_eq_iff_overlaps (builds : ofService file = .ok built)
    (same : reached.declared = built) {first second : Location} {a b : Step}
    (atFirst : reached.stepAt? first = some a) (atSecond : reached.stepAt? second = some b)
    (different : first ≠ second) {task task' : String} :
    a.requirement.podInstance.taskName task = b.requirement.podInstance.taskName task' ↔
      a.requirement.podInstance.Overlaps task b.requirement.podInstance task' ∨
        b.requirement.podInstance.Overlaps task' a.requirement.podInstance task := by
  rw [PodInstance.taskName_eq_iff]
  constructor
  · rintro (⟨types, indices, _⟩ | overlaps)
    · exact False.elim
        (different (location_eq_of_instance builds same atFirst atSecond types indices))
    · exact overlaps
  · exact Or.inr

theorem unmistakable_iff (builds : ofService file = .ok built) (same : reached.declared = built)
    {location : Location} {step : Step} (found : reached.stepAt? location = some step)
    {task : String} :
    reached.Unmistakable location step.requirement.podInstance task ↔
      ∀ other held, reached.stepAt? other = some held →
        step.requirement.podInstance.taskName task ∈ held.requirement.podInstance.fullNames →
          other = location := by
  constructor
  · intro unmistakable other held atOther member
    by_contra elsewhere
    obtain ⟨name, listed, named⟩ := List.mem_map.mp member
    obtain ⟨spec, inHeld, rfl⟩ := List.mem_map.mp listed
    apply unmistakable other held elsewhere atOther spec inHeld
    exact (taskName_eq_iff_overlaps builds same found atOther (Ne.symm elsewhere)).mp named.symm
  · intro alone other held elsewhere atOther spec inHeld overlaps
    have shared :=
      (taskName_eq_iff_overlaps builds same found atOther (Ne.symm elsewhere)).mpr overlaps
    apply elsewhere
    apply alone other held atOther
    rw [shared]
    exact List.mem_map_of_mem (List.mem_map_of_mem inHeld)

theorem nodup_fullNames_iff (builds : ofService file = .ok built)
    (same : reached.declared = built) (valid : ∀ step ∈ reached.steps, step.errors = []) :
    reached.fullNames.Nodup ↔ ∀ location step, reached.stepAt? location = some step →
      ∀ task ∈ step.requirement.podInstance.tasks,
        reached.Unmistakable location step.requirement.podInstance task.name := by
  rw [fullNames, List.Nodup, List.pairwise_flatMap]
  constructor
  · rintro ⟨_, apart⟩ location step found task inTasks
    have named : step.requirement.podInstance.taskName task.name ∈
        step.requirement.podInstance.fullNames :=
      List.mem_map_of_mem (List.mem_map_of_mem inTasks)
    rw [unmistakable_iff builds same found]
    intro other held atOther member
    rcases location.before_trichotomy other with before | equal | after
    · exact False.elim (steps_pairwise apart before found atOther _ named _ member rfl)
    · exact equal.symm
    · exact False.elim (steps_pairwise apart after atOther found _ member _ named rfl)
  · intro unmistakable
    constructor
    · intro step member
      obtain ⟨location, found⟩ := mem_steps_iff.mp member
      obtain ⟨pod, _, deploys⟩ := deploys_of_declared builds same found
      apply PodInstance.nodup_fullNames
      rw [deploys.tasks_eq]
      exact PodSection.nodup_names_of_faultless (deploys.errors.symm.trans (valid step member))
    · -- a name that stands at two locations would be that of overlapping tasks
      apply pairwise_steps
      intro first second a b before atFirst atSecond name inFirst name' inSecond equal
      obtain ⟨short, listed, rfl⟩ := List.mem_map.mp inFirst
      obtain ⟨task, inTasks, rfl⟩ := List.mem_map.mp listed
      have alone := (unmistakable_iff builds same atFirst).mp
        (unmistakable first a atFirst task inTasks)
      rw [← equal] at inSecond
      exact before.ne (alone second b atSecond inSecond).symm

/-- A report on a task reaches its step, and others with a task of this name. -/
theorem reach_of_task (builds : ofService file = .ok built) (same : reached.declared = built)
    {location : Location} {step : Step} (found : reached.stepAt? location = some step)
    {task : TaskSpec} (inTasks : task ∈ step.requirement.podInstance.tasks) {report : TaskReport}
    (concerns : report.Concerns (step.requirement.podInstance.taskName task.name)) :
    0 < reached.reach report ∧ (reached.reach report = 1 ↔
      reached.Unmistakable location step.requirement.podInstance task.name) := by
  have owns : step.owns (step.requirement.podInstance.taskName task.name) = true :=
    PodInstance.owns_iff_mem.mpr (List.mem_map_of_mem (List.mem_map_of_mem inTasks))
  rw [reach_of_concerns concerns (PodInstance.taskName_ne_empty _ _)]
  constructor
  · exact List.length_pos_of_mem
      (List.mem_filter.mpr ⟨mem_steps_iff.mpr ⟨location, found⟩, owns⟩)
  · rw [length_filter_steps_eq_one_iff found owns, unmistakable_iff builds same found]
    simp only [Step.owns, PodInstance.owns_iff_mem]

theorem unmistakable_of_separated (builds : ofService file = .ok built)
    (same : reached.declared = built) (separated : file.Separated) {location : Location}
    {step : Step} (found : reached.stepAt? location = some step) (task : String) :
    reached.Unmistakable location step.requirement.podInstance task := by
  have never : ∀ first second a b, reached.stepAt? first = some a →
      reached.stepAt? second = some b → ∀ task task', ¬ a.requirement.podInstance.Overlaps task
        b.requirement.podInstance task' := by
    intro first second a b atFirst atSecond task task' overlaps
    obtain ⟨pod, inFile, deploys⟩ := deploys_of_declared builds same atFirst
    obtain ⟨other, inFile', deploys'⟩ := deploys_of_declared builds same atSecond
    obtain ⟨apart, longer⟩ := separated pod (List.mem_of_getElem? inFile) _
      (List.mem_of_getElem? deploys.listed) other (List.mem_of_getElem? inFile')
    rcases overlaps.podType_cases with equal | ⟨more, equal⟩
    · exact apart (deploys'.podType_eq.symm.trans equal)
    · exact longer more (deploys'.podType_eq.symm.trans equal)
  rintro other held _ atOther spec _ (overlaps | overlaps)
  · exact never location other step held found atOther task spec.name overlaps
  · exact never other location held step atOther found spec.name task overlaps

end

/-- Which tasks of a plan share a name, and whom the reports on them reach. -/
structure Addresses (plan : Plan Step) (file : ServiceFile) : Prop where
  distinct : plan.fullNames.Nodup ↔ ∀ location step, plan.stepAt? location = some step →
    ∀ task ∈ step.requirement.podInstance.tasks,
      plan.Unmistakable location step.requirement.podInstance task.name
  reached : ∀ location step, plan.stepAt? location = some step →
    ∀ task ∈ step.requirement.podInstance.tasks, ∀ report : TaskReport,
      report.Concerns (step.requirement.podInstance.taskName task.name) →
        0 < plan.reach report ∧ (plan.reach report = 1 ↔
          plan.Unmistakable location step.requirement.podInstance task.name)
  /-- Where no pod type goes on from the name of an instance, every report has one
  addressee. -/
  separated : file.Separated → plan.fullNames.Nodup ∧
    ∀ step ∈ plan.steps, ∀ task ∈ step.requirement.podInstance.tasks, ∀ report : TaskReport,
      report.Concerns (step.requirement.podInstance.taskName task.name) → plan.reach report = 1

theorem addresses_of_declared {file : ServiceFile} {built reached : Plan Step}
    (builds : ofService file = .ok built) (same : reached.declared = built)
    (valid : ∀ step ∈ reached.steps, step.errors = []) : reached.Addresses file where
  distinct := nodup_fullNames_iff builds same valid
  reached := fun _ _ found _ inTasks _ concerns => reach_of_task builds same found inTasks concerns
  separated := by
    intro separated
    constructor
    · apply (nodup_fullNames_iff builds same valid).mpr
      intro location step found task _
      exact unmistakable_of_separated builds same separated found task.name
    · intro step member task inTasks report concerns
      obtain ⟨location, found⟩ := mem_steps_iff.mp member
      apply (reach_of_task builds same found inTasks concerns).2.mpr
      exact unmistakable_of_separated builds same separated found task.name

/-- In every state of every history, a report on a task of a valid file reaches its step, and
only this step unless a task elsewhere overlaps. -/
theorem addresses_of_history {σ : Type} {file : ServiceFile} {plan : Plan Step}
    (built : ofService file = .ok plan) (valid : ∀ step ∈ plan.steps, step.errors = [])
    (evaluator : σ) (operations : List (Operation σ)) :
    (Session.run ⟨plan, evaluator⟩ operations).plan.Addresses file := by
  have declared : (Session.run ⟨plan, evaluator⟩ operations).plan.declared = plan := by
    rw [Session.declared_run]
    exact declared_built built
  apply addresses_of_declared built declared
  intro step member
  obtain ⟨location, found⟩ := mem_steps_iff.mp member
  have atStart : plan.stepAt? location = some step.declared := by
    rw [← declared, stepAt?_declared, found]
    rfl
  exact valid step.declared (mem_steps_iff.mpr ⟨location, atStart⟩)

/-- One pod type goes on from the name of an instance, but their tasks do not overlap. -/
theorem addresses_of_relatives :
    let pods : List PodSection := [
      ⟨"index", 2, none, none, [⟨"server", none, none⟩]⟩,
      ⟨"index-0", 1, none, none, [⟨"server", none, none⟩]⟩]
    let file : ServiceFile := ⟨⟨"search", none⟩, none, none, pods⟩
    let plan := Plan.new deployName (file.pods.map PodSection.phase) file.planStrategy
    let reached := (Session.run ⟨plan, SlotPool.unbounded⟩
      [.pass (SlotPool.evaluate Nat.repr) []]).plan
    reached.fullNames = ["index-0-server", "index-1-server", "index-0-0-server"] ∧
      reached.Addresses file := by
  intro pods file plan reached
  have built : ofService file = .ok plan := rfl
  have valid : ∀ step ∈ plan.steps, step.errors = [] := by decide +kernel
  exact ⟨by decide +kernel, addresses_of_history built valid _ _⟩

/-- Two valid pods with one task each, of the same full name; a report on it reaches both. -/
theorem report_reaches_two_steps :
    let pods : List PodSection := [
      ⟨"index", 1, none, none, [⟨"0-server", none, none⟩]⟩,
      ⟨"index-0", 1, none, none, [⟨"server", none, none⟩]⟩]
    let file : ServiceFile := ⟨⟨"search", none⟩, none, none, pods⟩
    let plan := Plan.new deployName (file.pods.map PodSection.phase) file.planStrategy
    let report : TaskReport := .new "index-0-0-server__1" .running
    ofService file = .ok plan ∧ (∀ step ∈ plan.steps, step.errors = []) ∧
      plan.fullNames = ["index-0-0-server", "index-0-0-server"] ∧ ¬ plan.fullNames.Nodup ∧
      report.Concerns "index-0-0-server" ∧ plan.reach report = 2 := by
  intro pods file plan report
  have names : plan.fullNames = ["index-0-0-server", "index-0-0-server"] := by decide +kernel
  refine ⟨rfl, by decide +kernel, names, ?_, ⟨"1", by decide, by decide, rfl⟩, ?_⟩
  · rw [names]
    decide
  · decide +kernel

end Plan

end Rollout
