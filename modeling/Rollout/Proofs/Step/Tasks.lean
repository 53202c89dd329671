import Rollout.Step

/-! The tracked tasks of a step as a table under ids.  Giving a status to one task leaves the
descriptors and the other tasks alone; a list of recommendations fills the table with launched
tasks, one for each id. -/

namespace Rollout.TrackedTask

@[simp] theorem taskId_withStatus (task : TrackedTask) (status : Status) :
    (task.withStatus status).taskId = task.taskId := rfl

@[simp] theorem descriptor_withStatus (task : TrackedTask) (status : Status) :
    (task.withStatus status).descriptor = task.descriptor := rfl

@[simp] theorem status_withStatus (task : TrackedTask) (status : Status) :
    (task.withStatus status).status = status := rfl

theorem map_descriptor_withStatus (tasks : List TrackedTask) (status : Status) :
    (tasks.map (·.withStatus status)).map (·.descriptor) = tasks.map (·.descriptor) := by
  rw [List.map_map]
  rfl

/-! ### Looking up -/

theorem find?_eq_none_iff {tasks : List TrackedTask} {id : TaskId} :
    find? tasks id = none ↔ ∀ task ∈ tasks, task.taskId ≠ id := by
  simp [find?]

theorem taskId_of_find? {tasks : List TrackedTask} {id : TaskId} {task : TrackedTask}
    (found : find? tasks id = some task) : task.taskId = id := by
  simpa using List.find?_some found

theorem find?_of_mem {tasks : List TrackedTask} {task : TrackedTask}
    (distinct : (tasks.map taskId).Nodup) (member : task ∈ tasks) :
    find? tasks task.taskId = some task := by
  induction tasks with
  | nil => cases member
  | cons held rest ih =>
      rw [List.map_cons, List.nodup_cons] at distinct
      rcases List.mem_cons.mp member with same | later
      · subst same
        simp [find?]
      · have different : held.taskId ≠ task.taskId := by
          intro same
          apply distinct.1
          rw [same]
          exact List.mem_map_of_mem later
        have passed : (held.taskId == task.taskId) = false := beq_false_of_ne different
        rw [find?, List.find?_cons, passed]
        exact ih distinct.2 later

/-! ### Giving a status -/

theorem map_descriptor_setStatus (tasks : List TrackedTask) (id : TaskId) (status : Status) :
    (setStatus tasks id status).map (·.descriptor) = tasks.map (·.descriptor) := by
  rw [setStatus, List.map_map]
  apply List.map_congr_left
  intro task _
  rw [Function.comp_apply]
  split <;> rfl

theorem map_taskId_eq (tasks : List TrackedTask) :
    tasks.map taskId = (tasks.map (·.descriptor)).map (·.taskId) := by
  rw [List.map_map]
  rfl

theorem map_taskId_withStatus (tasks : List TrackedTask) (status : Status) :
    (tasks.map (·.withStatus status)).map taskId = tasks.map taskId := by
  rw [map_taskId_eq, map_descriptor_withStatus, ← map_taskId_eq]

theorem map_taskId_setStatus (tasks : List TrackedTask) (id : TaskId) (status : Status) :
    (setStatus tasks id status).map taskId = tasks.map taskId := by
  rw [map_taskId_eq, map_descriptor_setStatus, ← map_taskId_eq]

/-- Tasks are known by their descriptors and what is found under their ids. -/
theorem eq_map_of_find? {before after : List TrackedTask}
    {status : TrackedTask → Status} (distinct : (before.map taskId).Nodup)
    (descriptors : after.map (·.descriptor) = before.map (·.descriptor))
    (found : ∀ task ∈ before,
      find? after task.taskId = some (task.withStatus (status task))) :
    after = before.map fun task => task.withStatus (status task) := by
  have ids : after.map taskId = before.map taskId := by
    rw [map_taskId_eq, descriptors, ← map_taskId_eq]
  apply List.ext_getElem?
  intro place
  have atPlace : (after[place]?).map taskId =
      (before[place]?).map taskId := by
    rw [← List.getElem?_map, ids, List.getElem?_map]
  rw [List.getElem?_map]
  cases first : before[place]? with
  | none =>
      rw [first] at atPlace
      exact Option.map_eq_none_iff.mp atPlace
  | some task =>
      rw [first] at atPlace
      obtain ⟨held, second, same⟩ := Option.map_eq_some_iff.mp atPlace
      have own := find?_of_mem (ids ▸ distinct) (List.mem_of_getElem? second)
      rw [same, found task (List.mem_of_getElem? first)] at own
      rw [second, ← Option.some.inj own]
      rfl

theorem setStatus_setStatus (tasks : List TrackedTask) (id : TaskId) (first second : Status) :
    setStatus (setStatus tasks id first) id second = setStatus tasks id second := by
  rw [setStatus, setStatus, setStatus, List.map_map]
  apply List.map_congr_left
  intro task _
  rw [Function.comp_apply]
  by_cases same : task.taskId = id
  · rw [if_pos same, if_pos same, taskId_withStatus, if_pos same]
    rfl
  · rw [if_neg same, if_neg same]

theorem mem_setStatus_iff {tasks : List TrackedTask} {id : TaskId} {status : Status}
    {moved : TrackedTask} :
    moved ∈ setStatus tasks id status ↔
      ∃ task ∈ tasks, (if task.taskId = id then task.withStatus status else task) = moved :=
  List.mem_map

theorem find?_setStatus_self {tasks : List TrackedTask} {id : TaskId} {task : TrackedTask}
    (status : Status) (found : find? tasks id = some task) :
    find? (setStatus tasks id status) id = some (task.withStatus status) := by
  induction tasks with
  | nil => cases found
  | cons held rest ih =>
      by_cases same : held.taskId = id
      · have here : held = task := by simpa [find?, same] using found
        subst here
        simp [find?, setStatus, same]
      · have later : find? rest id = some task := by simpa [find?, same] using found
        have passed := ih later
        simpa [find?, setStatus, same] using passed

theorem find?_setStatus_of_ne {tasks : List TrackedTask} {id other : TaskId}
    (status : Status) (different : other ≠ id) :
    find? (setStatus tasks id status) other = find? tasks other := by
  induction tasks with
  | nil => rfl
  | cons held rest ih =>
      by_cases same : held.taskId = id
      · have passed : held.taskId ≠ other := fun here => different (here.symm.trans same)
        simpa [find?, setStatus, same, Ne.symm different] using ih
      · by_cases here : held.taskId = other
        · simp [find?, setStatus, here, different]
        · simpa [find?, setStatus, same, here] using ih

/-! ### Filling the table -/

theorem mem_of_mem_insert {task held : TrackedTask} {tasks : List TrackedTask}
    (member : held ∈ insert task tasks) : held = task ∨ held ∈ tasks := by
  induction tasks with
  | nil => exact Or.inl (List.mem_singleton.mp member)
  | cons first rest ih =>
      by_cases same : first.taskId = task.taskId
      · rw [insert, if_pos same] at member
        rcases List.mem_cons.mp member with atHead | later
        · exact Or.inl atHead
        · exact Or.inr (List.mem_cons_of_mem _ later)
      · rw [insert, if_neg same] at member
        rcases List.mem_cons.mp member with atHead | later
        · exact Or.inr (List.mem_cons.mpr (Or.inl atHead))
        · exact (ih later).imp_right (List.mem_cons_of_mem _)

theorem mem_insert_self (task : TrackedTask) (tasks : List TrackedTask) :
    task ∈ insert task tasks := by
  induction tasks with
  | nil => exact List.mem_singleton.mpr rfl
  | cons first rest ih =>
      rw [insert]
      split
      · exact List.mem_cons_self
      · exact List.mem_cons_of_mem _ ih

theorem nodup_insert {task : TrackedTask} {tasks : List TrackedTask}
    (distinct : (tasks.map taskId).Nodup) : ((insert task tasks).map taskId).Nodup := by
  induction tasks with
  | nil => simp [insert]
  | cons first rest ih =>
      rw [List.map_cons, List.nodup_cons] at distinct
      by_cases same : first.taskId = task.taskId
      · rw [insert, if_pos same, List.map_cons, List.nodup_cons, ← same]
        exact distinct
      · rw [insert, if_neg same, List.map_cons, List.nodup_cons]
        refine ⟨?_, ih distinct.2⟩
        intro present
        obtain ⟨held, member, equal⟩ := List.mem_map.mp present
        rcases mem_of_mem_insert member with atTask | inRest
        · exact same (equal.symm.trans (congrArg taskId atTask))
        · exact distinct.1 (equal ▸ List.mem_map_of_mem inRest)

def launchesOf (recommendations : List Recommendation) : List TaskDescriptor :=
  (recommendations.filterMap Recommendation.launched?).filter
    fun task => !task.taskId.isEmpty

theorem mem_launchesOf_iff {recommendations : List Recommendation} {task : TaskDescriptor} :
    task ∈ launchesOf recommendations ↔
      .launch task ∈ recommendations ∧ task.taskId ≠ "" := by
  have launched : ∀ recommendation : Recommendation,
      recommendation.launched? = some task ↔ recommendation = .launch task := by
    intro recommendation
    cases recommendation <;> simp [Recommendation.launched?]
  simp [launchesOf, launched]

private def fill (tasks : List TrackedTask) (launches : List TaskDescriptor) :
    List TrackedTask :=
  launches.foldl (fun tasks task => insert ⟨task, .starting⟩ tasks) tasks

private theorem mem_fill {launches : List TaskDescriptor} (tasks : List TrackedTask)
    {held : TrackedTask} (member : held ∈ fill tasks launches) :
    held ∈ tasks ∨ held.descriptor ∈ launches ∧ held.status = .starting := by
  induction launches generalizing tasks with
  | nil => exact Or.inl member
  | cons task rest ih =>
      rcases ih _ member with inserted | ⟨later, status⟩
      · rcases mem_of_mem_insert inserted with same | before
        · subst same
          exact Or.inr ⟨List.mem_cons_self, rfl⟩
        · exact Or.inl before
      · exact Or.inr ⟨List.mem_cons_of_mem _ later, status⟩

private theorem nodup_fill {launches : List TaskDescriptor} (tasks : List TrackedTask)
    (distinct : (tasks.map taskId).Nodup) : ((fill tasks launches).map taskId).Nodup := by
  induction launches generalizing tasks with
  | nil => exact distinct
  | cons task rest ih => exact ih _ (nodup_insert distinct)

private theorem fill_ne_nil {launches : List TaskDescriptor} {tasks : List TrackedTask}
    (occupied : tasks ≠ []) : fill tasks launches ≠ [] := by
  induction launches generalizing tasks with
  | nil => exact occupied
  | cons task rest ih => exact ih (List.ne_nil_of_mem (mem_insert_self _ _))

theorem of_mem_ofRecommendations {recommendations : List Recommendation} {task : TrackedTask}
    (member : task ∈ ofRecommendations recommendations) :
    task.descriptor ∈ launchesOf recommendations ∧ task.status = .starting := by
  rcases mem_fill [] member with absent | launched
  · cases absent
  · exact launched

theorem nodup_ofRecommendations (recommendations : List Recommendation) :
    ((ofRecommendations recommendations).map taskId).Nodup :=
  nodup_fill [] List.nodup_nil

theorem ofRecommendations_ne_nil {recommendations : List Recommendation}
    (launches : launchesOf recommendations ≠ []) : ofRecommendations recommendations ≠ [] := by
  obtain ⟨task, rest, shape⟩ := List.exists_cons_of_ne_nil launches
  have filled : ofRecommendations recommendations =
      fill [] (launchesOf recommendations) := rfl
  rw [filled, shape]
  change fill (insert ⟨task, .starting⟩ []) rest ≠ []
  exact fill_ne_nil (List.ne_nil_of_mem (mem_insert_self _ _))

end Rollout.TrackedTask
