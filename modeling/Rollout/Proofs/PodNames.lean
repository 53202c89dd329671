import Rollout.Plan.Build
import Rollout.Proofs.TaskIds

/-! Names are joined with dashes and nothing is escaped.  Under one pod type every part can be
read back all the same, because a numeral ends where the next dash or colon stands; so the
instances of a pod share neither the names of their steps nor those of their tasks.  Two pods
share the name of a task, or of a step, exactly when the type of one goes on from the name of an
instance of the other, into its task or into the list of its tasks. -/

namespace Rollout.PodInstance

/-! ### Cutting at a separator -/

/-- Text without a separator ends no later than any separator stands. -/
theorem exists_between_of_append {c : Char} {plain tail before rest : List Char}
    (absent : c ∉ plain) (same : plain ++ tail = before ++ c :: rest) :
    ∃ between, before = plain ++ between ∧ tail = between ++ c :: rest := by
  rcases List.append_eq_append_iff.mp same with
    ⟨between, atFront, behind⟩ | ⟨excess, atFront, behind⟩
  · exact ⟨between, atFront, behind⟩
  · cases excess with
    | nil => exact ⟨[], by simpa using atFront.symm, by simpa using behind.symm⟩
    | cons first others =>
        have here : c = first := (List.cons.inj behind).1
        rw [atFront, here] at absent
        exact False.elim (absent (List.mem_append_right _ List.mem_cons_self))

theorem notMem_numeral {c : Char} (plain : c.isDigit = false) (n : Nat) :
    c ∉ (toString n).toList := by
  intro member
  rw [show toString n = n.repr from rfl, Nat.toList_repr] at member
  rw [Nat.isDigit_of_mem_toDigits (by decide) (by decide) member] at plain
  cases plain

theorem numeral_append_inj {c : Char} (plain : c.isDigit = false) {m n : Nat}
    {tail rest : List Char}
    (same : (toString m).toList ++ c :: tail = (toString n).toList ++ c :: rest) :
    m = n ∧ tail = rest := by
  obtain ⟨between, atFront, behind⟩ := exists_between_of_append (notMem_numeral plain m) same
  cases between with
  | nil =>
      rw [List.append_nil] at atFront
      exact ⟨TaskId.fresh_repr.injective (String.toList_inj.mp atFront).symm,
        (List.cons.inj behind).2⟩
  | cons first others =>
      have here : c = first := (List.cons.inj behind).1
      apply False.elim
      apply notMem_numeral plain n
      rw [atFront, here]
      exact List.mem_append_right _ List.mem_cons_self

variable {pod other : PodInstance}

theorem toList_name (pod : PodInstance) :
    pod.name.toList = pod.podType.toList ++ '-' :: (toString pod.index.toNat).toList := by
  simp [name]

theorem toList_taskName (pod : PodInstance) (task : String) :
    (pod.taskName task).toList =
      pod.podType.toList ++ '-' :: ((toString pod.index.toNat).toList ++ '-' :: task.toList) := by
  simp [taskName, toList_name]

def taskList (pod : PodInstance) : String :=
  ",".intercalate (pod.tasks.map (·.name))

theorem toList_stepName (pod : PodInstance) :
    pod.stepName.toList = pod.podType.toList ++ '-' :: ((toString pod.index.toNat).toList ++
      ':' :: '[' :: (pod.taskList.toList ++ [']'])) := by
  simp [stepName, taskList, toList_name]

/-! ### One pod type -/

theorem taskName_inj (types : pod.podType = other.podType) {task task' : String}
    (same : pod.taskName task = other.taskName task') : pod.index = other.index ∧ task = task' := by
  have characters := congrArg String.toList same
  rw [toList_taskName, toList_taskName, types] at characters
  have behind := (List.cons.inj (List.append_cancel_left characters)).2
  obtain ⟨indices, tasks⟩ := numeral_append_inj (by decide) behind
  exact ⟨UInt32.toNat_inj.mp indices, String.toList_inj.mp tasks⟩

theorem stepName_inj (types : pod.podType = other.podType)
    (same : pod.stepName = other.stepName) :
    pod.index = other.index ∧ pod.taskList = other.taskList := by
  have characters := congrArg String.toList same
  rw [toList_stepName, toList_stepName, types] at characters
  have behind := (List.cons.inj (List.append_cancel_left characters)).2
  obtain ⟨indices, lists⟩ := numeral_append_inj (by decide) behind
  have tasks := List.append_cancel_right (List.cons.inj lists).2
  exact ⟨UInt32.toNat_inj.mp indices, String.toList_inj.mp tasks⟩

/-! ### Two pod types -/

/-- A pod type that goes on from another takes up the name of its instance. -/
theorem eq_nil_or_takes_name {more tail rest : List Char}
    (longer : other.podType.toList = pod.podType.toList ++ more)
    (same : pod.name.toList ++ tail = other.name.toList ++ rest) :
    more = [] ∨ ∃ between, other.podType.toList = pod.name.toList ++ between ∧
      tail = between ++ '-' :: ((toString other.index.toNat).toList ++ rest) := by
  cases more with
  | nil => exact Or.inl rfl
  | cons first others =>
      rw [toList_name, toList_name, longer, List.append_assoc, List.append_assoc,
        List.append_assoc] at same
      obtain ⟨dash, behind⟩ := List.cons.inj (List.append_cancel_left same)
      obtain ⟨between, atFront, tails⟩ :=
        exists_between_of_append (notMem_numeral (by decide) _) behind
      refine Or.inr ⟨between, ?_, tails⟩
      rw [longer, toList_name, ← dash, atFront, List.append_assoc]
      rfl

/-! ### Tasks of two pod types -/

/-- A task shares its name with one of another pod, whose type goes on from the name of
this instance. -/
def Overlaps (pod : PodInstance) (task : String) (other : PodInstance) (task' : String) : Prop :=
  ∃ rest, other.podType = pod.name ++ rest ∧
    "-" ++ task = rest ++ "-" ++ toString other.index.toNat ++ "-" ++ task'

theorem taskName_eq_of_overlaps {task task' : String} (overlaps : pod.Overlaps task other task') :
    pod.taskName task = other.taskName task' := by
  obtain ⟨rest, types, tasks⟩ := overlaps
  calc pod.taskName task = pod.name ++ ("-" ++ task) := by rw [taskName, String.append_assoc]
    _ = other.podType ++ "-" ++ toString other.index.toNat ++ "-" ++ task' := by
        rw [tasks, types]
        simp only [String.append_assoc]

theorem same_or_overlaps {task task' : String} {more : List Char}
    (longer : other.podType.toList = pod.podType.toList ++ more)
    (same : pod.taskName task = other.taskName task') :
    (pod.podType = other.podType ∧ pod.index = other.index ∧ task = task') ∨
      pod.Overlaps task other task' := by
  have characters : pod.name.toList ++ ('-' :: task.toList) =
      other.name.toList ++ ('-' :: task'.toList) := by
    simpa [taskName] using congrArg String.toList same
  rcases eq_nil_or_takes_name longer characters with none | ⟨between, atFront, tasks⟩
  · rw [none, List.append_nil] at longer
    have types := (String.toList_inj.mp longer).symm
    exact Or.inl ⟨types, taskName_inj types same⟩
  · refine Or.inr ⟨String.ofList between, ?_, ?_⟩
    · apply String.toList_inj.mp
      rw [atFront, String.toList_append, String.toList_ofList]
    · apply String.toList_inj.mp
      simpa using tasks

/-- Tasks share a full name when they are one task, or overlap either way round. -/
theorem taskName_eq_iff {task task' : String} :
    pod.taskName task = other.taskName task' ↔
      (pod.podType = other.podType ∧ pod.index = other.index ∧ task = task') ∨
        pod.Overlaps task other task' ∨ other.Overlaps task' pod task := by
  constructor
  · intro same
    have characters := congrArg String.toList same
    rw [toList_taskName, toList_taskName] at characters
    -- one pod type is the beginning of the other
    rcases List.append_eq_append_iff.mp characters with ⟨more, longer, _⟩ | ⟨more, longer, _⟩
    · exact (same_or_overlaps longer same).imp_right Or.inl
    · rcases same_or_overlaps longer same.symm with ⟨types, indices, tasks⟩ | overlaps
      · exact Or.inl ⟨types.symm, indices.symm, tasks.symm⟩
      · exact Or.inr (Or.inr overlaps)
  · rintro (⟨types, indices, tasks⟩ | overlaps | overlaps)
    · simp only [taskName, name, types, indices, tasks]
    · exact taskName_eq_of_overlaps overlaps
    · exact (taskName_eq_of_overlaps overlaps).symm

/-- Only a pod type that is the name of an instance, or goes on from it with a dash, overlaps. -/
theorem Overlaps.podType_cases {task task' : String} (overlaps : pod.Overlaps task other task') :
    other.podType = pod.name ∨ ∃ more, other.podType = pod.name ++ "-" ++ more := by
  obtain ⟨rest, types, tasks⟩ := overlaps
  have characters := congrArg String.toList tasks
  simp only [String.toList_append] at characters
  cases inside : rest.toList with
  | nil =>
      left
      rw [types, String.toList_eq_nil_iff.mp inside, String.append_empty]
  | cons first others =>
      right
      rw [inside] at characters
      have dash : '-' = first := (List.cons.inj characters).1
      refine ⟨String.ofList others, ?_⟩
      have shape : rest = "-" ++ String.ofList others := by
        apply String.toList_inj.mp
        rw [inside, ← dash]
        simp
      rw [types, shape, String.append_assoc]

/-! ### Steps of two pod types -/

/-- The step has the name of one for another pod, whose type goes on from the name of this
instance into the list of its tasks. -/
def Shadows (pod other : PodInstance) : Prop :=
  ∃ rest, other.podType = pod.name ++ ":[" ++ rest ∧
    pod.taskList = rest ++ "-" ++ toString other.index.toNat ++ ":[" ++ other.taskList

theorem stepName_eq_of_shadows (shadows : pod.Shadows other) :
    pod.stepName = other.stepName := by
  obtain ⟨rest, types, tasks⟩ := shadows
  calc pod.stepName = pod.name ++ ":[" ++ pod.taskList ++ "]" := rfl
    _ = other.podType ++ "-" ++ toString other.index.toNat ++ ":[" ++ other.taskList ++ "]" := by
        rw [tasks, types]
        simp only [String.append_assoc]

theorem same_or_shadows {more : List Char}
    (longer : other.podType.toList = pod.podType.toList ++ more)
    (same : pod.stepName = other.stepName) :
    (pod.podType = other.podType ∧ pod.index = other.index ∧ pod.taskList = other.taskList) ∨
      pod.Shadows other := by
  have characters : pod.name.toList ++ ([':', '['] ++ (pod.taskList.toList ++ [']'])) =
      other.name.toList ++ ([':', '['] ++ (other.taskList.toList ++ [']'])) := by
    simpa [stepName, taskList] using congrArg String.toList same
  rcases eq_nil_or_takes_name longer characters with none | ⟨between, atFront, tasks⟩
  · rw [none, List.append_nil] at longer
    have types := (String.toList_inj.mp longer).symm
    exact Or.inl ⟨types, stepName_inj types same⟩
  · -- where the list opens there is no dash
    obtain ⟨rest, bracket, inside⟩ := exists_between_of_append (by decide) tasks
    refine Or.inr ⟨String.ofList rest, ?_, ?_⟩
    · apply String.toList_inj.mp
      rw [atFront, bracket]
      simp
    · apply String.toList_inj.mp
      apply (List.append_left_inj [']']).mp
      simpa using inside

/-- Steps share a name when they are for one instance with one list of tasks, or one shadows
the other. -/
theorem stepName_eq_iff :
    pod.stepName = other.stepName ↔
      (pod.podType = other.podType ∧ pod.index = other.index ∧ pod.taskList = other.taskList) ∨
        pod.Shadows other ∨ other.Shadows pod := by
  constructor
  · intro same
    have characters := congrArg String.toList same
    rw [toList_stepName, toList_stepName] at characters
    rcases List.append_eq_append_iff.mp characters with ⟨more, longer, _⟩ | ⟨more, longer, _⟩
    · exact (same_or_shadows longer same).imp_right Or.inl
    · rcases same_or_shadows longer same.symm with ⟨types, indices, tasks⟩ | shadows
      · exact Or.inl ⟨types.symm, indices.symm, tasks.symm⟩
      · exact Or.inr (Or.inr shadows)
  · rintro (⟨types, indices, tasks⟩ | shadows | shadows)
    · change pod.name ++ ":[" ++ pod.taskList ++ "]" = other.name ++ ":[" ++ other.taskList ++ "]"
      simp only [name, types, indices, tasks]
    · exact stepName_eq_of_shadows shadows
    · exact (stepName_eq_of_shadows shadows).symm

end Rollout.PodInstance
