import Mathlib.Data.List.Induction
import Mathlib.Data.List.Nodup
import Mathlib.Data.List.Perm.Basic
import Rollout.Proofs.Step.Coherence

/-! What the outcome of an offer makes of a step.  Without a match the tracked tasks are kept and
wait; otherwise the launches take their place, the last one under each id, and nothing that the
step held before is left of them.  The previous status of the step has no say, and the same
outcome again changes nothing. -/

namespace Rollout

namespace TrackedTask

/-- No later launch is under the id of this one. -/
def LastLaunch (recommendations : List Recommendation) (task : TaskDescriptor) : Prop :=
  Since (· = .launch task)
    (fun later => ∀ other, later = .launch other → other.taskId ≠ task.taskId) recommendations

theorem mem_insert_iff {task held : TrackedTask} {tasks : List TrackedTask}
    (distinct : (tasks.map taskId).Nodup) :
    held ∈ insert task tasks ↔ held = task ∨ held ∈ tasks ∧ task.taskId ≠ held.taskId := by
  induction tasks with
  | nil => simp [insert]
  | cons first rest ih =>
      rw [List.map_cons, List.nodup_cons] at distinct
      by_cases same : first.taskId = task.taskId
      · -- the first task is replaced, and no other has its id
        have others : held ∈ rest → task.taskId ≠ held.taskId := by
          intro later equal
          apply distinct.1
          rw [same, equal]
          exact List.mem_map_of_mem later
        rw [insert, if_pos same, List.mem_cons, List.mem_cons]
        constructor
        · rintro (atHead | later)
          · exact Or.inl atHead
          · exact Or.inr ⟨Or.inr later, others later⟩
        · rintro (atTask | ⟨rfl | later, different⟩)
          · exact Or.inl atTask
          · exact absurd same.symm different
          · exact Or.inr later
      · rw [insert, if_neg same, List.mem_cons, List.mem_cons, ih distinct.2]
        constructor
        · rintro (rfl | atTask | ⟨later, different⟩)
          · exact Or.inr ⟨Or.inl rfl, Ne.symm same⟩
          · exact Or.inl atTask
          · exact Or.inr ⟨Or.inr later, different⟩
        · rintro (atTask | ⟨rfl | later, different⟩)
          · exact Or.inr (Or.inl atTask)
          · exact Or.inl rfl
          · exact Or.inr (Or.inr ⟨later, different⟩)

theorem exists_lastLaunch {recommendations : List Recommendation} {task : TaskDescriptor}
    (launch : .launch task ∈ recommendations) :
    ∃ last, last.taskId = task.taskId ∧ LastLaunch recommendations last := by
  induction recommendations using List.reverseRecOn with
  | nil => cases launch
  | append_singleton recommendations last ih =>
      by_cases again : ∃ other, last = .launch other ∧ other.taskId = task.taskId
      · obtain ⟨other, rfl, same⟩ := again
        exact ⟨other, same, since_concat_iff.mpr (Or.inl rfl)⟩
      · rcases List.mem_append.mp launch with before | atEnd
        · obtain ⟨other, same, launched⟩ := ih before
          refine ⟨other, same, since_concat_iff.mpr (Or.inr ⟨launched, ?_⟩)⟩
          intro later equal under
          exact again ⟨later, equal, under.trans same⟩
        · exact absurd ⟨task, (List.mem_singleton.mp atEnd).symm, rfl⟩ again

theorem launchesOf_append (recommendations others : List Recommendation) :
    launchesOf (recommendations ++ others) = launchesOf recommendations ++ launchesOf others := by
  simp only [launchesOf, List.filterMap_append, List.filter_append]

theorem ofRecommendations_concat_launch (recommendations : List Recommendation)
    {task : TaskDescriptor} (identified : task.taskId ≠ "") :
    ofRecommendations (recommendations ++ [.launch task]) =
      insert ⟨task, .starting⟩ (ofRecommendations recommendations) := by
  simp [ofRecommendations, Recommendation.launched?, identified]

theorem ofRecommendations_concat_other (recommendations : List Recommendation)
    {last : Recommendation} (other : ∀ task, last = .launch task → task.taskId = "") :
    ofRecommendations (recommendations ++ [last]) = ofRecommendations recommendations := by
  have none : launchesOf [last] = [] := by
    apply List.eq_nil_iff_forall_not_mem.mpr
    intro task member
    obtain ⟨launch, identified⟩ := mem_launchesOf_iff.mp member
    exact identified (other task (List.mem_singleton.mp launch).symm)
  have launches := launchesOf_append recommendations [last]
  rw [none, List.append_nil] at launches
  exact congrArg (List.foldl (fun tasks task => insert ⟨task, .starting⟩ tasks) []) launches

/-- The tracked tasks are the last launches under each id but the empty one. -/
theorem mem_ofRecommendations_iff {recommendations : List Recommendation}
    {task : TrackedTask} :
    task ∈ ofRecommendations recommendations ↔ task.status = .starting ∧
      task.taskId ≠ "" ∧ LastLaunch recommendations task.descriptor := by
  induction recommendations using List.reverseRecOn with
  | nil =>
      constructor
      · intro impossible
        cases impossible
      · rintro ⟨_, _, launched⟩
        exact absurd launched not_since_nil
  | append_singleton recommendations last ih =>
      rw [LastLaunch, since_concat_iff]
      by_cases counts : ∃ launched, last = .launch launched ∧ launched.taskId ≠ ""
      · obtain ⟨launched, rfl, identified⟩ := counts
        rw [ofRecommendations_concat_launch _ identified,
          mem_insert_iff (nodup_ofRecommendations _), ih]
        constructor
        · rintro (rfl | ⟨⟨starting, named, before⟩, different⟩)
          · exact ⟨rfl, identified, Or.inl rfl⟩
          · refine ⟨starting, named, Or.inr ⟨before, ?_⟩⟩
            intro other same
            cases same
            exact different
        · rintro ⟨starting, named, same | ⟨before, kept⟩⟩
          · left
            cases task
            cases same
            cases starting
            rfl
          · exact Or.inr ⟨⟨starting, named, before⟩, kept launched rfl⟩
      · have other : ∀ launched, last = .launch launched → launched.taskId = "" := by
          intro launched same
          by_contra identified
          exact counts ⟨launched, same, identified⟩
        rw [ofRecommendations_concat_other _ other, ih]
        constructor
        · rintro ⟨starting, named, before⟩
          refine ⟨starting, named, Or.inr ⟨before, ?_⟩⟩
          intro launched same equal
          exact named (equal.symm.trans (other launched same))
        · rintro ⟨starting, named, same | ⟨before, _⟩⟩
          · exact absurd (other _ same) named
          · exact ⟨starting, named, before⟩

theorem mem_map_taskId_ofRecommendations_iff {recommendations : List Recommendation}
    {id : TaskId} :
    id ∈ (ofRecommendations recommendations).map taskId ↔
      id ≠ "" ∧ ∃ task, .launch task ∈ recommendations ∧ task.taskId = id := by
  rw [List.mem_map]
  constructor
  · rintro ⟨task, member, rfl⟩
    obtain ⟨launch, identified⟩ :=
      mem_launchesOf_iff.mp (of_mem_ofRecommendations member).1
    exact ⟨identified, task.descriptor, launch, rfl⟩
  · rintro ⟨identified, task, launch, rfl⟩
    obtain ⟨last, same, launched⟩ := exists_lastLaunch launch
    exact ⟨⟨last, .starting⟩,
      mem_ofRecommendations_iff.mpr ⟨rfl, same.trans_ne identified, launched⟩, same⟩

theorem lastLaunch_iff_mem {recommendations : List Recommendation} {task : TaskDescriptor}
    (distinct : ((launchesOf recommendations).map (·.taskId)).Nodup)
    (identified : task.taskId ≠ "") :
    LastLaunch recommendations task ↔ .launch task ∈ recommendations := by
  constructor
  · rintro ⟨before, event, after, rfl, rfl, _⟩
    exact List.mem_append_right before List.mem_cons_self
  · intro launch
    obtain ⟨before, after, rfl⟩ := List.append_of_mem launch
    refine ⟨before, _, after, rfl, rfl, ?_⟩
    rintro _ later other rfl same
    rw [launchesOf_append, List.map_append] at distinct
    have counted : other ∈ launchesOf after :=
      mem_launchesOf_iff.mpr ⟨later, same.trans_ne identified⟩
    have here : launchesOf (.launch task :: after) = task :: launchesOf after := by
      simp [launchesOf, Recommendation.launched?, identified]
    rw [here, List.map_cons] at distinct
    apply (List.nodup_cons.mp (List.nodup_append.mp distinct).2.1).1
    rw [← same]
    exact List.mem_map_of_mem counted

/-- Under distinct ids the order of the launches is not seen in what is tracked. -/
theorem ofRecommendations_perm {recommendations others : List Recommendation}
    (distinct : ((launchesOf recommendations).map (·.taskId)).Nodup)
    (reordered : recommendations.Perm others) :
    (ofRecommendations others).Perm (ofRecommendations recommendations) := by
  have launches : (launchesOf recommendations).Perm (launchesOf others) :=
    (reordered.filterMap _).filter _
  have distinct' : ((launchesOf others).map (·.taskId)).Nodup :=
    (launches.map (·.taskId)).nodup_iff.mp distinct
  apply (List.perm_ext_iff_of_nodup (List.Nodup.of_map _ (nodup_ofRecommendations others))
    (List.Nodup.of_map _ (nodup_ofRecommendations recommendations))).mpr
  intro task
  rw [mem_ofRecommendations_iff, mem_ofRecommendations_iff]
  have launched : task.taskId ≠ "" →
      (LastLaunch others task.descriptor ↔ LastLaunch recommendations task.descriptor) := by
    intro identified
    rw [lastLaunch_iff_mem distinct' identified, lastLaunch_iff_mem distinct identified]
    exact reordered.symm.mem_iff
  exact and_congr_right fun _ => and_congr_right launched

/-! ### Putting down and starting -/

/-- The launches as they are put down, before any of them is started. -/
def enlist (recommendations : List Recommendation) : List TrackedTask :=
  (launchesOf recommendations).foldl (fun tasks task => insert ⟨task, .prepared⟩ tasks) []

/-- Gives a status to the tasks with these ids, one after the other. -/
def setEach (tasks : List TrackedTask) (status : Status) (ids : List TaskId) :
    List TrackedTask :=
  ids.foldl (fun tasks id => setStatus tasks id status) tasks

theorem map_withStatus_insert (task : TrackedTask) (tasks : List TrackedTask)
    (status : Status) :
    (insert task tasks).map (·.withStatus status) =
      insert (task.withStatus status) (tasks.map (·.withStatus status)) := by
  induction tasks with
  | nil => rfl
  | cons first rest ih =>
      by_cases same : first.taskId = task.taskId
      · simp [insert, same]
      · simp [insert, same, ih]

theorem map_withStatus_enlist (recommendations : List Recommendation) :
    (enlist recommendations).map (·.withStatus .starting) =
      ofRecommendations recommendations := by
  refine (List.foldl_hom (List.map fun task : TrackedTask => task.withStatus .starting) ?_).symm
  intro tasks task
  exact (map_withStatus_insert ⟨task, .prepared⟩ tasks .starting).symm

theorem setEach_eq_map (tasks : List TrackedTask) (status : Status) (ids : List TaskId) :
    setEach tasks status ids =
      tasks.map fun task => if task.taskId ∈ ids then task.withStatus status else task := by
  induction ids generalizing tasks with
  | nil => simp [setEach]
  | cons id rest ih =>
      change setEach (setStatus tasks id status) status rest = _
      rw [ih, setStatus, List.map_map]
      apply List.map_congr_left
      intro task _
      rw [Function.comp_apply]
      by_cases here : task.taskId = id
      · have member : task.taskId ∈ id :: rest := List.mem_cons.mpr (Or.inl here)
        rw [if_pos here, if_pos member]
        split <;> rfl
      · rw [if_neg here]
        simp only [List.mem_cons, here, false_or]

/-- It does not matter in which order all tasks are given a status. -/
theorem setEach_of_covers {tasks : List TrackedTask} {ids : List TaskId} (status : Status)
    (covers : ∀ task ∈ tasks, task.taskId ∈ ids) :
    setEach tasks status ids = tasks.map (·.withStatus status) := by
  rw [setEach_eq_map]
  apply List.map_congr_left
  intro task member
  exact if_pos (covers task member)

end TrackedTask

namespace Step

theorem updateOffer_updateOffer (step : Step) (recommendations : List Recommendation) :
    (step.updateOffer recommendations).updateOffer recommendations =
      step.updateOffer recommendations := by
  have tasks : ((step.updateOffer recommendations).updateOffer recommendations).tasks =
      (step.updateOffer recommendations).tasks := by
    by_cases unmatched : recommendations = []
    · subst unmatched
      rw [updateOffer_nil_tasks, updateOffer_nil_tasks, List.map_map]
      rfl
    · rw [updateOffer_tasks _ unmatched, updateOffer_tasks _ unmatched]
  have status : ((step.updateOffer recommendations).updateOffer recommendations).status =
      (step.updateOffer recommendations).status := by
    rw [updateOffer_status, updateOffer_status]
    exact derivedStatus_congr tasks fun _ => rfl
  calc (step.updateOffer recommendations).updateOffer recommendations
      = { step.updateOffer recommendations with
          tasks := ((step.updateOffer recommendations).updateOffer recommendations).tasks
          status := ((step.updateOffer recommendations).updateOffer recommendations).status } :=
        rfl
    _ = step.updateOffer recommendations := by rw [tasks, status]

structure TracksLaunches (step : Step) (recommendations : List Recommendation) : Prop where
  tracked : ∀ task, task ∈ step.tasks ↔ task.status = .starting ∧ task.taskId ≠ "" ∧
    TrackedTask.LastLaunch recommendations task.descriptor
  ids : ∀ id, id ∈ step.tasks.map TrackedTask.taskId ↔
    id ≠ "" ∧ ∃ task, .launch task ∈ recommendations ∧ task.taskId = id
  distinct : (step.tasks.map TrackedTask.taskId).Nodup
  status : step.status = if step.tasks = [] then .prepared else .starting
  /-- The launches are put down first; it does not show in which order they are started. -/
  started : ∀ ids, (∀ id, id ∈ ids ↔ id ∈ (TrackedTask.enlist recommendations).map
      TrackedTask.taskId) →
    step.tasks = TrackedTask.setEach (TrackedTask.enlist recommendations) .starting ids
  /-- Only launches with an id count, for whichever step they are. -/
  others : ∀ (other : Step) (alike : List Recommendation), alike ≠ [] →
    TrackedTask.launchesOf alike = TrackedTask.launchesOf recommendations →
    (other.updateOffer alike).tasks = step.tasks ∧
      (other.updateOffer alike).status = step.status
  /-- Under distinct ids their order does not count. -/
  unordered : ((TrackedTask.launchesOf recommendations).map (·.taskId)).Nodup →
    ∀ (other : Step) (reordered : List Recommendation), recommendations.Perm reordered →
    (other.updateOffer reordered).tasks.Perm step.tasks ∧
      (other.updateOffer reordered).status = step.status

structure Takes (before : Step) (recommendations : List Recommendation) (after : Step) :
    Prop where
  kept : recommendations = [] →
    after.tasks.map (·.descriptor) = before.tasks.map (·.descriptor) ∧
      (∀ task ∈ after.tasks, task.status = .prepared) ∧ after.status = .prepared
  launched : recommendations ≠ [] → after.TracksLaunches recommendations
  prepared : after.prepared = true
  parameters : after.parameters = before.parameters
  declared : after.declared = before.declared
  again : after.updateOffer recommendations = after

theorem tracksLaunches_updateOffer (step : Step) {recommendations : List Recommendation}
    (matched : recommendations ≠ []) :
    (step.updateOffer recommendations).TracksLaunches recommendations := by
  have tasks := step.updateOffer_tasks matched
  refine ⟨?_, ?_, ?_, step.status_updateOffer matched, ?_, ?_, ?_⟩
  · intro task
    rw [tasks]
    exact TrackedTask.mem_ofRecommendations_iff
  · intro id
    rw [tasks]
    exact TrackedTask.mem_map_taskId_ofRecommendations_iff
  · rw [tasks]
    exact TrackedTask.nodup_ofRecommendations recommendations
  · intro ids every
    rw [tasks, TrackedTask.setEach_of_covers, TrackedTask.map_withStatus_enlist]
    exact fun task member => (every task.taskId).mpr (List.mem_map_of_mem member)
  · intro other alike present launches
    have same : (other.updateOffer alike).tasks = (step.updateOffer recommendations).tasks := by
      rw [other.updateOffer_tasks present, tasks]
      exact congrArg (List.foldl (fun tasks task => TrackedTask.insert ⟨task, .starting⟩ tasks) [])
        launches
    refine ⟨same, ?_⟩
    rw [other.status_updateOffer present, step.status_updateOffer matched, same]
  · intro distinct other reordered permuted
    have present : reordered ≠ [] := by
      intro none
      subst none
      exact matched permuted.eq_nil
    have same : (other.updateOffer reordered).tasks.Perm
        (step.updateOffer recommendations).tasks := by
      rw [other.updateOffer_tasks present, tasks]
      exact TrackedTask.ofRecommendations_perm distinct permuted
    refine ⟨same, ?_⟩
    rw [other.status_updateOffer present, step.status_updateOffer matched]
    simp only [← List.length_eq_zero_iff, same.length_eq]

/-- Whatever a step was before, the outcome of an offer alone says what it tracks then. -/
theorem takes_updateOffer (step : Step) (recommendations : List Recommendation) :
    step.Takes recommendations (step.updateOffer recommendations) where
  kept := by
    intro unmatched
    subst unmatched
    exact ⟨TrackedTask.map_descriptor_withStatus step.tasks .prepared,
      fun _ => prepared_of_mem_updateOffer, step.status_updateOffer_nil⟩
  launched := step.tracksLaunches_updateOffer
  prepared := rfl
  parameters := rfl
  declared := step.declared_act (.offer recommendations)
  again := step.updateOffer_updateOffer recommendations

end Step

end Rollout
