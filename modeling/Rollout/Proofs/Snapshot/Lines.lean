import Rollout.Proofs.Arrangements
import Rollout.Proofs.Plan.Built
import Rollout.Proofs.Plan.Operations
import Rollout.Proofs.PodNames
import Rollout.Proofs.Text.Lines

/-! The text of a snapshot, counted in lines.  Every plan, phase, step, error and tracked task has
one piece of the text, closed by a line feed, and the pieces stand in pre-order.  Nothing in a
piece is escaped: the text has a further line for each line feed that a name, an error or an id
holds, and it shows one line for each item exactly when none of them holds any. -/

namespace Rollout

/-! ### Items and their pieces -/

inductive Row where
  | element (depth : Nat) (name : String) (status : Status) (strategy : Option StrategyKind)
  | error (depth : Nat) (text : String)
  | task (depth : Nat) (tracked : TrackedTask)

namespace Row

open Text (Unbroken unbroken_append)

def spaces (count : Nat) : String :=
  String.ofList (List.replicate count ' ')

/-- Two spaces for each level above the element, and two more for what hangs on it. -/
def line : Row → String
  | .element depth name status strategy =>
      spaces (2 * depth) ++ name ++ " [" ++ status.label ++ "]" ++
        Snapshot.strategyText strategy
  | .error depth text => spaces (2 * depth + 2) ++ "! " ++ text
  | .task depth tracked =>
      spaces (2 * depth + 2) ++ "- " ++ tracked.descriptor.name ++ " " ++ tracked.taskId ++
        " [" ++ tracked.status.label ++ "]"

theorem unbroken_spaces (count : Nat) : Unbroken (spaces count) := by
  simp [Unbroken, spaces, List.mem_replicate]

theorem unbroken_label (status : Status) : Unbroken status.label := by
  cases status <;> decide

theorem unbroken_strategyText (strategy : Option StrategyKind) :
    Unbroken (Snapshot.strategyText strategy) := by
  cases strategy with
  | none => decide
  | some kind => cases kind <;> decide

/-- What the plan puts around names and texts has no line feeds. -/
@[simp] theorem unbroken_element {depth : Nat} {name : String} {status : Status}
    {strategy : Option StrategyKind} :
    Unbroken (line (.element depth name status strategy)) ↔ Unbroken name := by
  have opening : Unbroken " [" := by decide
  have closing : Unbroken "]" := by decide
  simp [line, unbroken_append, unbroken_spaces, unbroken_label, unbroken_strategyText, opening,
    closing]

@[simp] theorem unbroken_error {depth : Nat} {text : String} :
    Unbroken (line (.error depth text)) ↔ Unbroken text := by
  have mark : Unbroken "! " := by decide
  simp [line, unbroken_append, unbroken_spaces, mark]

@[simp] theorem unbroken_task {depth : Nat} {tracked : TrackedTask} :
    Unbroken (line (.task depth tracked)) ↔
      Unbroken tracked.descriptor.name ∧ Unbroken tracked.taskId := by
  have dash : Unbroken "- " := by decide
  have blank : Unbroken " " := by decide
  have opening : Unbroken " [" := by decide
  have closing : Unbroken "]" := by decide
  simp [line, unbroken_append, unbroken_spaces, unbroken_label, dash, blank, opening, closing]

end Row

def Step.rows (arrangement : Arrangement) (step : Step) : List Row :=
  .element 2 step.name step.status none ::
    (step.errors.map (.error 2) ++ (step.trackedTasks arrangement).map (.task 2))

def Phase.rows (arrangement : Arrangement) (phase : Phase Step) : List Row :=
  .element 1 phase.name phase.status (some phase.strategy.kind) ::
    (phase.errors.map (.error 1) ++ phase.steps.flatMap (Step.rows arrangement))

def Plan.rows (arrangement : Arrangement) (plan : Plan Step) : List Row :=
  .element 0 plan.name plan.status (some plan.strategy.kind) ::
    (plan.errors.map (.error 0) ++ plan.phases.flatMap (Phase.rows arrangement))

theorem Snapshot.linesOfAll_map {α : Type} (depth : Nat) (take : α → Snapshot) (parts : List α) :
    linesOfAll depth (parts.map take) = parts.flatMap fun part => lines depth (take part) := by
  induction parts with
  | nil => rfl
  | cons part rest ih => rw [List.map_cons, linesOfAll, ih, List.flatMap_cons]

theorem Snapshot.lines_ofStep (arrangement : Arrangement) (step : Step) :
    lines 2 (ofStep arrangement step) = (step.rows arrangement).map Row.line := by
  simp only [ofStep, lines, linesOfAll, Step.rows, List.map_cons, List.map_append, List.map_map,
    List.append_nil]
  rfl

theorem Snapshot.lines_ofPhase (arrangement : Arrangement) (phase : Phase Step) :
    lines 1 (ofPhase arrangement phase) = (phase.rows arrangement).map Row.line := by
  simp only [ofPhase, lines, linesOfAll_map, Nat.reduceAdd, lines_ofStep, Phase.rows, List.map_cons,
    List.map_append, List.map_map, List.map_nil, List.append_nil, List.map_flatMap]
  rfl

theorem Snapshot.lines_ofPlan (arrangement : Arrangement) (plan : Plan Step) :
    lines 0 (ofPlan arrangement plan) = (plan.rows arrangement).map Row.line := by
  simp only [ofPlan, lines, linesOfAll_map, Nat.reduceAdd, lines_ofPhase, Plan.rows, List.map_cons,
    List.map_append, List.map_map, List.map_nil, List.append_nil, List.map_flatMap]
  rfl

/-! ### The text of a plan -/

open Text (Unbroken)

variable {arrangement : Arrangement}

theorem Plan.render_snapshot (arrangement : Arrangement) (plan : Plan Step) :
    (plan.snapshot arrangement).render =
      Text.closed ((plan.rows arrangement).map Row.line) := by
  rw [snapshot, Snapshot.render, Snapshot.lines_ofPlan]
  rfl

theorem Step.length_rows (step : Step) :
    (step.rows arrangement).length = 1 + step.errors.length + step.tasks.length := by
  have shown := (step.trackedTasks_perm arrangement).length_eq
  simp only [rows, List.length_cons, List.length_append, List.length_map]
  omega

theorem length_rows_steps (steps : List Step) :
    (steps.flatMap (Step.rows arrangement)).length =
      steps.length + (steps.map (·.errors.length)).sum + (steps.map (·.tasks.length)).sum := by
  induction steps with
  | nil => rfl
  | cons step rest ih =>
      rw [List.flatMap_cons, List.length_append, ih, step.length_rows]
      simp only [List.length_cons, List.map_cons, List.sum_cons]
      omega

theorem length_rows_phases (phases : List (Phase Step)) :
    (phases.flatMap (Phase.rows arrangement)).length =
      phases.length + (phases.map (·.errors.length)).sum +
        ((phases.flatMap (·.steps)).flatMap (Step.rows arrangement)).length := by
  induction phases with
  | nil => rfl
  | cons phase rest ih =>
      rw [List.flatMap_cons, List.length_append, ih, Phase.rows]
      simp only [List.length_cons, List.length_append, List.length_map, List.map_cons,
        List.sum_cons, List.flatMap_cons, List.flatMap_append]
      omega

/-- One row for each element, one for each error and one for each tracked task. -/
theorem Plan.length_rows (arrangement : Arrangement) (plan : Plan Step) :
    (plan.rows arrangement).length = (1 + plan.phases.length + plan.steps.length) +
      (plan.errors.length + (plan.phases.map (·.errors.length)).sum +
        (plan.steps.map (·.errors.length)).sum) +
      (plan.steps.map (·.tasks.length)).sum := by
  have steps : plan.phases.flatMap (·.steps) = plan.steps := rfl
  rw [rows, List.length_cons, List.length_append, List.length_map, length_rows_phases, steps,
    length_rows_steps]
  omega

def Step.Unbroken (step : Step) : Prop :=
  Text.Unbroken step.name ∧ (∀ error ∈ step.errors, Text.Unbroken error) ∧
    ∀ task ∈ step.tasks, Text.Unbroken task.descriptor.name ∧ Text.Unbroken task.taskId

theorem Step.unbroken_rows_iff {step : Step} :
    (∀ row ∈ step.rows arrangement, Text.Unbroken row.line) ↔ step.Unbroken := by
  simp only [rows, List.forall_mem_cons, List.forall_mem_append, List.forall_mem_map,
    mem_trackedTasks, Row.unbroken_element, Row.unbroken_error, Row.unbroken_task,
    Step.Unbroken]

theorem Phase.unbroken_rows_iff {phase : Phase Step} :
    (∀ row ∈ phase.rows arrangement, Unbroken row.line) ↔
      Unbroken phase.name ∧ (∀ error ∈ phase.errors, Unbroken error) ∧
        ∀ step ∈ phase.steps, step.Unbroken := by
  simp only [rows, List.forall_mem_cons, List.forall_mem_append, List.forall_mem_map,
    List.forall_mem_flatMap, Row.unbroken_element, Row.unbroken_error,
    Step.unbroken_rows_iff]

theorem Plan.unbroken_rows_iff {plan : Plan Step} :
    (∀ row ∈ plan.rows arrangement, Unbroken row.line) ↔
      Unbroken plan.name ∧ (∀ error ∈ plan.errors, Unbroken error) ∧
        ∀ phase ∈ plan.phases, Unbroken phase.name ∧
          (∀ error ∈ phase.errors, Unbroken error) ∧ ∀ step ∈ phase.steps, step.Unbroken := by
  simp only [rows, List.forall_mem_cons, List.forall_mem_append, List.forall_mem_map,
    List.forall_mem_flatMap, Row.unbroken_element, Row.unbroken_error,
    Phase.unbroken_rows_iff]

/-! ### Plans of service files -/

theorem PodInstance.unbroken_stepName_iff {pod : PodInstance} :
    Unbroken pod.stepName ↔ Unbroken pod.podType ∧ ∀ task ∈ pod.tasks, Unbroken task.name := by
  have numeral : Unbroken (toString pod.index.toNat) := notMem_numeral (by decide) _
  have dash : Unbroken "-" := by decide
  have opening : Unbroken ":[" := by decide
  have closing : Unbroken "]" := by decide
  simp only [stepName, name, Text.unbroken_append, numeral, dash, opening, closing, and_true,
    Text.unbroken_intercalate (show Unbroken "," by decide), List.forall_mem_map]

namespace PodSection

theorem eq_of_mem_taskFaults {podType : String} {seen : List String} {tasks : List TaskSpec}
    {error : String} (member : error ∈ taskFaults podType seen tasks) :
    ∃ task ∈ tasks, error = repeatedTaskText podType task.name ∨
      error = idleCheckText podType task.name := by
  induction tasks generalizing seen with
  | nil => cases member
  | cons task rest ih =>
      rw [taskFaults, List.mem_append, List.mem_append] at member
      rcases member with (repeated | idle) | later
      · split at repeated
        · exact ⟨task, List.mem_cons_self, Or.inl (List.mem_singleton.mp repeated)⟩
        · cases repeated
      · split at idle
        · exact ⟨task, List.mem_cons_self, Or.inr (List.mem_singleton.mp idle)⟩
        · cases idle
      · obtain ⟨other, inRest, same⟩ := ih later
        exact ⟨other, List.mem_cons_of_mem task inRest, same⟩

theorem unbroken_faults {pod : PodSection} (podType : Unbroken pod.podType)
    (tasks : ∀ task ∈ pod.tasks, Unbroken task.name) :
    ∀ error ∈ pod.faults, Unbroken error := by
  have pieces : ∀ piece ∈ ["pod '", "' defines no tasks", "' defines task '",
      "' more than once", "task '", "' in pod '", "' has a readiness check but goal state ",
      Goal.finished.label], Unbroken piece := by decide
  simp only [List.forall_mem_cons] at pieces
  intro error member
  rw [faults, List.mem_append] at member
  rcases member with lacking | faulty
  · split at lacking
    · rw [List.mem_singleton.mp lacking]
      simp [noTasksText, Text.unbroken_append, pieces, podType]
    · cases lacking
  · obtain ⟨spec, listed, same⟩ := eq_of_mem_taskFaults faulty
    obtain ⟨task, declared, rfl⟩ := List.mem_map.mp listed
    have name : Unbroken task.spec.name := tasks task declared
    rcases same with rfl | rfl
    · simp [repeatedTaskText, Text.unbroken_append, pieces, podType, name]
    · simp [idleCheckText, Text.unbroken_append, pieces, podType, name]

end PodSection

/-- The names in a file stay on their lines; those of tasks count where there are instances. -/
structure ServiceFile.Unbroken (file : ServiceFile) : Prop where
  types : ∀ pod ∈ file.pods, Text.Unbroken pod.podType
  tasks : ∀ pod ∈ file.pods, 0 < pod.count → ∀ task ∈ pod.tasks, Text.Unbroken task.name

namespace Plan

structure Prints (arrangement : Arrangement) (plan : Plan Step) (file : ServiceFile) :
    Prop where
  pieces : (plan.snapshot arrangement).render =
    Text.closed ((plan.rows arrangement).map Row.line)
  items : (plan.rows arrangement).length = (1 + plan.phases.length + plan.steps.length) +
    (plan.errors.length + (plan.phases.map (·.errors.length)).sum +
      (plan.steps.map (·.errors.length)).sum) +
    (plan.steps.map (·.tasks.length)).sum
  lines : (Text.lines (plan.snapshot arrangement).render).length =
    (plan.rows arrangement).length +
      ((plan.rows arrangement).map fun row => row.line.toList.count '\n').sum
  faithful : Text.lines (plan.snapshot arrangement).render =
      (plan.rows arrangement).map Row.line ↔
    file.Unbroken ∧ ∀ step ∈ plan.steps, ∀ task ∈ step.tasks,
      Text.Unbroken task.descriptor.name ∧ Text.Unbroken task.taskId
  /-- One line too many is enough to lose it. -/
  counted : (Text.lines (plan.snapshot arrangement).render).length =
      (plan.rows arrangement).length ↔
    Text.lines (plan.snapshot arrangement).render = (plan.rows arrangement).map Row.line

section

variable {file : ServiceFile} {built reached : Plan Step}

theorem unbroken_rows_of_declared (builds : ofService file = .ok built)
    (same : reached.declared = built) (arrangement : Arrangement) :
    (∀ row ∈ reached.rows arrangement, Unbroken row.line) ↔
      file.Unbroken ∧ ∀ step ∈ reached.steps, ∀ task ∈ step.tasks,
        Unbroken task.descriptor.name ∧ Unbroken task.taskId := by
  rw [unbroken_rows_iff]
  constructor
  · rintro ⟨_, _, phases⟩
    refine ⟨⟨?_, ?_⟩, ?_⟩
    · intro pod member
      obtain ⟨place, inFile⟩ := List.mem_iff_getElem?.mp member
      obtain ⟨phase, inPlan, declared⟩ := phase_of_pod builds same inFile
      have names : phase.name = pod.podType := congrArg Phase.name declared
      rw [← names]
      exact (phases phase (List.mem_of_getElem? inPlan)).1
    · intro pod member instances
      obtain ⟨place, inFile⟩ := List.mem_iff_getElem?.mp member
      obtain ⟨phase, inPlan, declared⟩ := phase_of_pod builds same inFile
      have occupied : 0 < phase.steps.length := by
        rw [PodSection.length_steps_of_declared declared]
        exact UInt32.lt_iff_toNat_lt.mp instances
      have found : reached.stepAt? ⟨place, 0⟩ = some phase.steps[0] :=
        stepAt?_eq_some_iff.mpr ⟨phase, inPlan, List.getElem?_eq_getElem occupied⟩
      obtain ⟨other, listed, deploys⟩ := deploys_of_declared builds same found
      cases inFile.symm.trans listed
      have step := (phases phase (List.mem_of_getElem? inPlan)).2.2 _ (List.getElem_mem occupied)
      have names := step.1
      rw [deploys.name, PodInstance.unbroken_stepName_iff, deploys.tasks_eq] at names
      exact fun task declared => names.2 task.spec (List.mem_map_of_mem declared)
    · intro step member
      obtain ⟨phase, inPlan, inPhase⟩ := List.mem_flatMap.mp member
      exact ((phases phase inPlan).2.2 step inPhase).2.2
  · rintro ⟨unbroken, tasks⟩
    have outline : reached.name = built.name ∧ reached.errors = built.errors := by
      rw [← same]
      exact ⟨rfl, rfl⟩
    rw [outline.1, outline.2, ofService_eq_ok builds]
    refine ⟨(by decide : Unbroken deployName), List.forall_mem_nil _, ?_⟩
    intro phase inPlan
    obtain ⟨place, atPlace⟩ := List.mem_iff_getElem?.mp inPlan
    obtain ⟨pod, inFile, declared⟩ := pod_of_phase builds same atPlace
    have names : phase.name = pod.podType := congrArg Phase.name declared
    have errors : phase.errors = [] := congrArg Phase.errors declared
    have podType := unbroken.types pod (List.mem_of_getElem? inFile)
    rw [names, errors]
    refine ⟨podType, List.forall_mem_nil _, ?_⟩
    intro step inPhase
    obtain ⟨index, found⟩ := exists_stepAt?_of_mem atPlace inPhase
    obtain ⟨other, listed, deploys⟩ := deploys_of_declared builds same found
    cases inFile.symm.trans listed
    have occupied : 0 < pod.count := by
      rw [UInt32.lt_iff_toNat_lt, ← PodSection.length_steps_of_declared declared]
      exact List.length_pos_of_mem inPhase
    have specs := unbroken.tasks pod (List.mem_of_getElem? inFile) occupied
    refine ⟨?_, ?_, tasks step (List.mem_flatMap.mpr ⟨phase, inPlan, inPhase⟩)⟩
    · rw [deploys.name, PodInstance.unbroken_stepName_iff, deploys.podType_eq, deploys.tasks_eq]
      exact ⟨podType, List.forall_mem_map.mpr specs⟩
    · rw [deploys.errors]
      exact PodSection.unbroken_faults podType specs

theorem prints_of_declared (builds : ofService file = .ok built)
    (same : reached.declared = built) (arrangement : Arrangement) :
    reached.Prints arrangement file := by
  have text := reached.render_snapshot arrangement
  have pieces := reached.length_rows arrangement
  have lines := Text.length_lines_closed ((reached.rows arrangement).map Row.line)
  have faithful := unbroken_rows_of_declared builds same arrangement
  rw [List.length_map, List.map_map] at lines
  refine ⟨text, pieces, ?_, ?_, ?_⟩
  · rw [text, lines]
    rfl
  · rw [text, Text.lines_closed_iff, List.forall_mem_map, faithful]
  · rw [text, Text.lines_closed_iff, ← Text.length_lines_closed_iff, List.length_map]

end

/-- In every state of every history the text has a piece for each item, and these are its lines
exactly when no name and no id breaks one. -/
theorem prints_of_history {σ : Type} {file : ServiceFile} {plan : Plan Step}
    (built : ofService file = .ok plan) (evaluator : σ) (operations : List (Operation σ))
    (arrangement : Arrangement) :
    (Session.run ⟨plan, evaluator⟩ operations).plan.Prints arrangement file := by
  refine prints_of_declared built ?_ arrangement
  rw [Session.declared_run]
  exact declared_built built

/-- A pod with a fault, and a launched task beside it whose name begins as a line would. -/
theorem prints_of_indented_names :
    let pods : List PodSection := [⟨"idle", 1, none, none, []⟩,
      ⟨"  index", 1, none, none, [⟨"- server", none, none⟩]⟩]
    let file : ServiceFile := ⟨⟨"search", none⟩, some ⟨some .parallel⟩, none, pods⟩
    let plan := Plan.new deployName (file.pods.map PodSection.phase) file.planStrategy
    let operations : List (Operation SlotPool) := [.pass (SlotPool.evaluate Nat.repr) []]
    let reached := (Session.run ⟨plan, SlotPool.unbounded⟩ operations).plan
    ofService file = .ok plan ∧ reached.Prints .byId file ∧
      Text.lines (reached.snapshot .byId).render = ["deploy [ERROR] (parallel)",
        "  idle [ERROR] (serial)", "    idle-0:[] [ERROR]", "      ! pod 'idle' defines no tasks",
        "    index [STARTING] (serial)", "      index-0:[- server] [STARTING]",
        "      -   index-0-- server   index-0-- server__1 [STARTING]"] := by
  intro pods file plan operations reached
  have built : ofService file = .ok plan := rfl
  have prints := prints_of_history built SlotPool.unbounded operations .byId
  have names : file.Unbroken := by
    constructor
    · simp [file, pods, Text.Unbroken]
    · simp [file, pods, Text.Unbroken]
  have tracked : ∀ step ∈ reached.steps, ∀ task ∈ step.tasks,
      Text.Unbroken task.descriptor.name ∧ Text.Unbroken task.taskId := by decide +kernel
  exact ⟨built, prints, (prints.faithful.mpr ⟨names, tracked⟩).trans (by decide +kernel)⟩

/-- A line feed in a pod type takes a line of its own wherever the type is shown. -/
theorem line_feed_breaks_rows :
    ¬ ∀ (file : ServiceFile) (plan : Plan Step), ofService file = .ok plan →
      ∀ (operations : List (Operation SlotPool)) (arrangement : Arrangement),
        let reached := (Session.run ⟨plan, SlotPool.unbounded⟩ operations).plan
        (Text.lines (reached.snapshot arrangement).render).length =
          (reached.rows arrangement).length := by
  intro counted
  let pod : PodSection := ⟨"index\nquery", 1, none, none, [⟨"server", none, none⟩]⟩
  let file : ServiceFile := ⟨⟨"search", none⟩, none, none, [pod]⟩
  have lines := counted file _ rfl [] .byId
  revert lines
  decide +kernel

end Plan

end Rollout
