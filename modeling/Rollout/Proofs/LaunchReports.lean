import Rollout.Proofs.PassOutcomes
import Rollout.Proofs.Step.Coherence

/-! Launches as a pass reports them, and as the steps record them.  The report names a step when
any launch was recommended for it; the step tracks the launches that have an id, and is starting
exactly when there is one.  So a step under way is always reported, and a reported step is under
way unless every launch for it came without an id. -/

namespace Rollout

theorem Recommendation.launchesAny_iff {recommendations : List Recommendation} :
    launchesAny recommendations = true ↔ ∃ task, .launch task ∈ recommendations := by
  rw [launchesAny, List.any_eq_true]
  constructor
  · rintro ⟨recommendation, member, launches⟩
    cases recommendation with
    | launch task => exact ⟨task, member⟩
    | reserve _ _ => cases launches
    | unreserve _ => cases launches
  · rintro ⟨task, member⟩
    exact ⟨.launch task, member, rfl⟩

namespace Step

def Launching (step : Step) : Prop :=
  step.status = .starting ∧ step.tasks ≠ []

variable {recommendations : List Recommendation}

theorem launching_updateOffer_iff (step : Step) :
    (step.updateOffer recommendations).Launching ↔
      ∃ task, .launch task ∈ recommendations ∧ task.taskId ≠ "" := by
  by_cases unmatched : recommendations = []
  · subst unmatched
    constructor
    · rintro ⟨starting, _⟩
      rw [step.status_updateOffer_nil] at starting
      cases starting
    · rintro ⟨task, member, _⟩
      cases member
  · have tasks := step.updateOffer_tasks unmatched
    constructor
    · rintro ⟨_, tracked⟩
      obtain ⟨task, rest, shape⟩ := List.exists_cons_of_ne_nil tracked
      rw [tasks] at shape
      have launched := (TrackedTask.of_mem_ofRecommendations
        (shape ▸ List.mem_cons_self : task ∈ TrackedTask.ofRecommendations recommendations)).1
      exact ⟨task.descriptor, TrackedTask.mem_launchesOf_iff.mp launched⟩
    · rintro ⟨task, launch⟩
      have tracked : (step.updateOffer recommendations).tasks ≠ [] := by
        rw [tasks]
        apply TrackedTask.ofRecommendations_ne_nil
        exact List.ne_nil_of_mem (TrackedTask.mem_launchesOf_iff.mpr launch)
      exact ⟨(step.status_updateOffer unmatched).trans (if_neg tracked), tracked⟩

theorem untracked_updateOffer (step : Step) (matched : recommendations ≠ [])
    (anonymous : ∀ task, .launch task ∈ recommendations → task.taskId = "") :
    (step.updateOffer recommendations).status = .prepared ∧
      (step.updateOffer recommendations).tasks = [] := by
  have untracked : (step.updateOffer recommendations).tasks = [] := by
    rw [step.updateOffer_tasks matched, List.eq_nil_iff_forall_not_mem]
    intro task member
    obtain ⟨launch, identified⟩ :=
      TrackedTask.mem_launchesOf_iff.mp (TrackedTask.of_mem_ofRecommendations member).1
    exact identified (anonymous _ launch)
  exact ⟨status_updateOffer_of_untracked untracked, untracked⟩

theorem launching_heed_iff {step : Step} (waits : step.status ≠ .starting)
    (outcome : Evaluation) :
    (step.heed outcome).Launching ↔ ∃ recommendations, outcome = .ok recommendations ∧
      ∃ task, .launch task ∈ recommendations ∧ task.taskId ≠ "" := by
  cases outcome with
  | error cause =>
      constructor
      · rintro ⟨starting, _⟩
        exact absurd starting waits
      · rintro ⟨_, impossible, _⟩
        cases impossible
  | ok recommendations =>
      constructor
      · intro underway
        exact ⟨recommendations, rfl, (launching_updateOffer_iff step).mp underway⟩
      · rintro ⟨_, same, launch⟩
        cases same
        exact (launching_updateOffer_iff step).mpr launch

end Step

namespace Plan

variable {σ : Type} {plan : Plan Step} {evaluate : Evaluator σ} {state : σ}
  {dirty : List String} {location : Location}

def Answered (plan : Plan Step) (evaluate : Evaluator σ) (state : σ) (dirty : List String)
    (location : Location) (outcome : Evaluation) : Prop :=
  ∃ (index : Nat) (step : Step), (plan.candidateSteps dirty)[index]? = some location ∧
    (plan.verdicts evaluate state dirty)[index]? = some (step, outcome)

theorem exists_location_of_verdict {index : Nat} {verdict : Step × Evaluation}
    (found : (plan.verdicts evaluate state dirty)[index]? = some verdict) :
    ∃ location, (plan.candidateSteps dirty)[index]? = some location ∧
      plan.stepAt? location = some verdict.1 := by
  have handed : (plan.handedOut dirty)[index]? = some verdict.1 :=
    (List.getElem?_zip_eq_some.mp found).1
  have aligned : (plan.handedOut dirty)[index]? =
      ((plan.candidateSteps dirty)[index]?).bind plan.stepAt? :=
    getElem?_stepsAt
      (fun other member => (startable_of_candidate member).imp fun _ both => both.1) index
  exact Option.bind_eq_some_iff.mp (aligned.symm.trans handed)

theorem name_mem_verdicts_iff (distinct : (plan.steps.map (·.name)).Nodup) {step : Step}
    (found : plan.stepAt? location = some step) (keep : Evaluation → Bool) :
    step.name ∈ ((plan.verdicts evaluate state dirty).filter
        fun verdict => keep verdict.2).map (·.1.name) ↔
      ∃ outcome, plan.Answered evaluate state dirty location outcome ∧ keep outcome = true := by
  constructor
  · intro member
    obtain ⟨verdict, filtered, same⟩ := List.mem_map.mp member
    obtain ⟨among, kept⟩ := List.mem_filter.mp filtered
    obtain ⟨index, place⟩ := List.mem_iff_getElem?.mp among
    obtain ⟨other, candidate, there⟩ := exists_location_of_verdict place
    have here := location_eq_of_key distinct there found same
    subst here
    exact ⟨verdict.2, ⟨index, verdict.1, candidate, place⟩, kept⟩
  · rintro ⟨outcome, ⟨index, other, candidate, place⟩, kept⟩
    obtain ⟨same, again, there⟩ := exists_location_of_verdict place
    rw [candidate] at again
    cases again
    rw [found] at there
    cases there
    exact List.mem_map.mpr ⟨_, List.mem_filter.mpr ⟨List.mem_of_getElem? place, kept⟩, rfl⟩

theorem status_ne_starting_of_candidate {step : Step}
    (member : location ∈ plan.candidateSteps dirty)
    (found : plan.stepAt? location = some step) : step.status ≠ .starting := by
  obtain ⟨other, there, eligible⟩ := eligible_of_mem_candidateSteps member
  rw [found] at there
  cases there
  have pending : step.status.isPending = true := (Element.isEligible_iff.mp eligible).1
  intro starting
  rw [starting] at pending
  cases pending

theorem exists_answered_iff :
    (∃ outcome, plan.Answered evaluate state dirty location outcome) ↔
      location ∈ plan.candidateSteps dirty := by
  constructor
  · rintro ⟨_, _, _, candidate, _⟩
    exact List.mem_of_getElem? candidate
  · intro member
    obtain ⟨index, candidate⟩ := List.mem_iff_getElem?.mp member
    obtain ⟨step, outcome, _, verdict, _⟩ :=
      plan.exists_verdict evaluate state dirty candidate
    exact ⟨outcome, index, step, candidate, verdict⟩

theorem Answered.heeded {outcome : Evaluation}
    (answered : plan.Answered evaluate state dirty location outcome) {step : Step}
    (found : (plan.runPass evaluate state dirty).plan.stepAt? location = some step) :
    ∃ old : Step, old.status ≠ .starting ∧ step = old.heed outcome := by
  obtain ⟨index, old, candidate, verdict⟩ := answered
  obtain ⟨same, other, before, again, after⟩ :=
    plan.exists_verdict evaluate state dirty candidate
  rw [verdict] at again
  cases again
  rw [found] at after
  exact ⟨old, status_ne_starting_of_candidate (List.mem_of_getElem? candidate) before,
    Option.some.inj after⟩

section

variable {step : Step}
  (found : (plan.runPass evaluate state dirty).plan.stepAt? location = some step)
include found

theorem exists_before_runPass :
    ∃ old, plan.stepAt? location = some old ∧ old.name = step.name := by
  obtain ⟨old, before, same | ⟨_, _, _, _, _, _, same⟩⟩ :=
    (plan.runPass_evolves evaluate state dirty).step_after found
  · exact ⟨old, before, same ▸ rfl⟩
  · exact ⟨old, before, same ▸ rfl⟩

theorem mem_evaluated_iff (distinct : (plan.steps.map (·.name)).Nodup) :
    step.name ∈ (plan.runPass evaluate state dirty).report.evaluated ↔
      location ∈ plan.candidateSteps dirty := by
  obtain ⟨old, before, named⟩ := exists_before_runPass found
  have every : old.name ∈ ((plan.verdicts evaluate state dirty).filter
        fun _ => true).map (·.1.name) ↔
      ∃ outcome, plan.Answered evaluate state dirty location outcome ∧ true = true :=
    name_mem_verdicts_iff distinct before fun _ => true
  rw [List.filter_true, map_name_verdicts] at every
  rw [(plan.accounts_of_runPass evaluate state dirty).evaluated, ← named, every]
  simp only [and_true]
  exact exists_answered_iff

theorem mem_launched_iff (distinct : (plan.steps.map (·.name)).Nodup) :
    step.name ∈ (plan.runPass evaluate state dirty).report.launched ↔
      ∃ recommendations,
        plan.Answered evaluate state dirty location (.ok recommendations) ∧
          ∃ task, .launch task ∈ recommendations := by
  obtain ⟨old, before, named⟩ := exists_before_runPass found
  rw [(plan.accounts_of_runPass evaluate state dirty).launched, ← named,
    name_mem_verdicts_iff distinct before]
  constructor
  · rintro ⟨cause | recommendations, answered, launches⟩
    · cases launches
    · exact ⟨recommendations, answered, Recommendation.launchesAny_iff.mp launches⟩
  · rintro ⟨recommendations, answered, launches⟩
    exact ⟨_, answered, Recommendation.launchesAny_iff.mpr launches⟩

theorem launching_iff :
    location ∈ plan.candidateSteps dirty ∧ step.Launching ↔ ∃ recommendations,
      plan.Answered evaluate state dirty location (.ok recommendations) ∧
        ∃ task, .launch task ∈ recommendations ∧ task.taskId ≠ "" := by
  constructor
  · rintro ⟨member, launching⟩
    obtain ⟨outcome, answered⟩ := exists_answered_iff.mpr member
    obtain ⟨old, waits, same⟩ := answered.heeded found
    rw [same] at launching
    obtain ⟨recommendations, rfl, launch⟩ := (Step.launching_heed_iff waits outcome).mp launching
    exact ⟨recommendations, answered, launch⟩
  · rintro ⟨recommendations, answered, launch⟩
    obtain ⟨old, waits, same⟩ := answered.heeded found
    rw [same]
    exact ⟨exists_answered_iff.mp ⟨_, answered⟩,
      (Step.launching_heed_iff waits _).mpr ⟨recommendations, rfl, launch⟩⟩

end

/-- What the report of a pass says about the launch of a step, and what the step shows
after the pass. -/
structure ShowsLaunch (plan : Plan Step) (evaluate : Evaluator σ) (state : σ)
    (dirty : List String) (report : PassReport) (location : Location) (step : Step) : Prop where
  evaluated : step.name ∈ report.evaluated ↔ location ∈ plan.candidateSteps dirty
  /-- The report counts every launch that was recommended. -/
  launched : step.name ∈ report.launched ↔ ∃ recommendations,
    plan.Answered evaluate state dirty location (.ok recommendations) ∧
      ∃ task, .launch task ∈ recommendations
  /-- The step counts the launches that have an id. -/
  launching : step.name ∈ report.evaluated ∧ step.Launching ↔ ∃ recommendations,
    plan.Answered evaluate state dirty location (.ok recommendations) ∧
      ∃ task, .launch task ∈ recommendations ∧ task.taskId ≠ ""
  reported : step.name ∈ report.evaluated → step.Launching → step.name ∈ report.launched
  /-- The two differ only when no launch had an id. -/
  anonymous : step.name ∈ report.launched → ¬ step.Launching →
    step.name ∈ report.evaluated ∧ step.status = .prepared ∧ step.tasks = [] ∧
      ∃ recommendations,
        plan.Answered evaluate state dirty location (.ok recommendations) ∧
          ∀ task, .launch task ∈ recommendations → task.taskId = ""
  agrees : (∀ recommendations,
      plan.Answered evaluate state dirty location (.ok recommendations) →
        (∃ task, .launch task ∈ recommendations) →
          ∃ task, .launch task ∈ recommendations ∧ task.taskId ≠ "") →
    (step.name ∈ report.launched ↔ step.name ∈ report.evaluated ∧ step.Launching)

/-- In a plan with distinct step names, a pass reports a launch for every step that is
starting for it, and for no other step but those whose launches came without an id. -/
theorem showsLaunch_of_runPass (distinct : (plan.steps.map (·.name)).Nodup)
    (evaluate : Evaluator σ) (state : σ) (dirty : List String) {step : Step}
    (found : (plan.runPass evaluate state dirty).plan.stepAt? location = some step) :
    ShowsLaunch plan evaluate state dirty (plan.runPass evaluate state dirty).report location
      step := by
  have evaluated := mem_evaluated_iff found distinct
  have launched := mem_launched_iff found distinct
  have launching := launching_iff found
  rw [← evaluated] at launching
  have reported : step.name ∈ (plan.runPass evaluate state dirty).report.evaluated →
      step.Launching → step.name ∈ (plan.runPass evaluate state dirty).report.launched := by
    intro member starts
    obtain ⟨recommendations, answered, task, launch, _⟩ := launching.mp ⟨member, starts⟩
    exact launched.mpr ⟨recommendations, answered, task, launch⟩
  refine ⟨evaluated, launched, launching, reported, ?_, ?_⟩
  · intro member idle
    obtain ⟨recommendations, answered, task, launch⟩ := launched.mp member
    have anonymous : ∀ other, .launch other ∈ recommendations → other.taskId = "" := by
      intro other offered
      by_contra identified
      exact idle (launching.mpr ⟨recommendations, answered, other, offered, identified⟩).2
    obtain ⟨old, _, same⟩ := answered.heeded found
    obtain ⟨prepared, untracked⟩ :=
      old.untracked_updateOffer (List.ne_nil_of_mem launch) anonymous
    subst same
    exact ⟨evaluated.mpr (exists_answered_iff.mp ⟨_, answered⟩), prepared, untracked,
      recommendations, answered, anonymous⟩
  · intro identified
    constructor
    · intro member
      obtain ⟨recommendations, answered, launch⟩ := launched.mp member
      exact launching.mpr ⟨recommendations, answered, identified recommendations answered launch⟩
    · exact fun both => reported both.1 both.2

/-- Of two launches under one id one is tracked, and one without an id is not; a reservation
is no launch. -/
theorem showsLaunch_of_offers :
    let task : TaskId → TaskDescriptor := fun id => ⟨"index-0-server", id, .running, none⟩
    let file : ServiceFile := ⟨⟨"search", none⟩, none, none,
      [⟨"index", 3, some .parallel, none, [⟨"server", none, none⟩]⟩]⟩
    let plan := Plan.new deployName (file.pods.map PodSection.phase) file.planStrategy
    let evaluate : Evaluator SlotPool := Evaluator.scripted [
      ("index-0", .ok [.launch (task ""), .launch (task "a__1"), .launch (task "a__1")]),
      ("index-1", .ok [.reserve "disk" "index-1"]),
      ("index-2", .error (.refused "index-2" "no offers"))] (SlotPool.evaluate Nat.repr)
    let pass := plan.runPass evaluate .unbounded []
    ofService file = .ok plan ∧ (plan.steps.map (·.name)).Nodup ∧
      pass.report = ⟨["index-0:[server]", "index-1:[server]", "index-2:[server]"],
        ["index-0:[server]"], ["index-2:[server]"]⟩ ∧
      ∃ step, pass.plan.stepAt? ⟨0, 0⟩ = some step ∧ step.status = .starting ∧
        step.tasks.length = 1 ∧
        ShowsLaunch plan evaluate .unbounded [] pass.report ⟨0, 0⟩ step := by
  intro task file plan evaluate pass
  have distinct : (plan.steps.map (·.name)).Nodup := by decide +kernel
  refine ⟨rfl, distinct, by decide +kernel, ?_⟩
  obtain ⟨step, found⟩ : ∃ step, pass.plan.stepAt? ⟨0, 0⟩ = some step :=
    Option.isSome_iff_exists.mp (by decide +kernel)
  have shown : (pass.plan.stepAt? ⟨0, 0⟩).map (fun step => (step.status, step.tasks.length)) =
      some (.starting, 1) := by decide +kernel
  rw [found, Option.map_some, Option.some.injEq, Prod.mk.injEq] at shown
  exact ⟨step, found, shown.1, shown.2, showsLaunch_of_runPass distinct evaluate _ [] found⟩

/-- A launch without an id is reported, but the step has nothing to wait for. -/
theorem anonymous_launch_reported :
    let server : TaskDescriptor := ⟨"index-0-server", "", .running, none⟩
    let file := ServiceFile.scaffold "search" "index" 1
    let plan := Plan.new deployName (file.pods.map PodSection.phase) file.planStrategy
    let evaluate : Evaluator Unit := fun _ state => (.ok [.launch server], state)
    let pass := plan.runPass evaluate () []
    ofService file = .ok plan ∧ (plan.steps.map (·.name)).Nodup ∧
      "index-0:[server]" ∈ pass.report.launched ∧
      ¬ ("index-0:[server]" ∈ pass.report.evaluated ∧
        ∃ step, pass.plan.step? "index-0:[server]" = some step ∧
          step.status = .starting ∧ step.tasks ≠ []) := by
  intro server file plan evaluate pass
  have unlaunched : (pass.plan.step? "index-0:[server]").map (·.status) = some .prepared := by
    decide +kernel
  refine ⟨rfl, by decide +kernel, by decide +kernel, ?_⟩
  rintro ⟨_, step, found, starting, _⟩
  rw [found, Option.map_some, starting] at unlaunched
  cases unlaunched

end Plan

end Rollout
