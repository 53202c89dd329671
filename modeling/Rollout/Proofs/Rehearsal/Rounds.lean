import Mathlib.Data.Finset.Card
import Mathlib.Data.Finset.Dedup
import Rollout.Proofs.Rehearsal.Answers
import Rollout.Proofs.Rehearsal.Launching
import Rollout.Proofs.SerialOrder
import Rollout.Rehearsal.Basic

/-! One round of a rehearsal.  Between rounds nothing is in flight: every step has settled. A
round launches every candidate and hears of every launched task, so that a candidate either
completes or has used up a name of the tasks that fail. -/

namespace Rollout

theorem Session.run_routes {σ : Type} (session : Session σ) (reports : List TaskReport) :
    session.run (reports.map .route) =
      { session with plan := session.plan.routeAll reports } := by
  induction reports generalizing session with
  | nil => rfl
  | cons report rest ih => exact ih (session.perform (.route report))

theorem Plan.Evolves.of_routeAll (plan : Plan Step) (reports : List TaskReport) :
    Evolves (fun _ old new => new = reports.foldl Step.update old) plan
      (plan.routeAll reports) := by
  induction reports generalizing plan with
  | nil => exact Evolves.of_stepAt? rfl (fun _ => rfl) (fun _ => rfl)
  | cons report rest ih =>
      have first := Evolves.of_mapSteps plan (·.update report)
      rw [← route_eq_mapSteps] at first
      refine first.trans (ih (plan.route report)) ?_
      intro location old middle new told later
      rw [later, told]
      rfl

namespace Plan

def unfinished (plan : Plan Step) : Finset Location :=
  plan.locations.toFinset.filter fun location =>
    ((plan.stepAt? location).any fun step => !step.status.isComplete) = true

theorem mem_unfinished_iff {plan : Plan Step} {location : Location} :
    location ∈ plan.unfinished ↔
      ∃ step, plan.stepAt? location = some step ∧ step.status ≠ .complete := by
  rw [unfinished, Finset.mem_filter, List.mem_toFinset, mem_locations_iff]
  cases plan.stepAt? location with
  | none => simp
  | some step => simp [Status.isComplete]

theorem card_unfinished_le (plan : Plan Step) : plan.unfinished.card ≤ plan.steps.length := by
  calc plan.unfinished.card ≤ plan.locations.toFinset.card := Finset.card_filter_le _ _
    _ ≤ plan.locations.length := plan.locations.toFinset_card_le
    _ = plan.steps.length := plan.length_locations

end Plan

namespace Rehearsal

def pass (suffix : Nat → String) (rehearsal : Rehearsal) : Plan.Pass SlotPool :=
  rehearsal.plan.runPass (SlotPool.evaluate suffix) rehearsal.pool []

def reports (suffix : Nat → String) (arrangement : Arrangement) (rehearsal : Rehearsal) :
    List TaskReport :=
  (rehearsal.cluster.reports arrangement (rehearsal.pass suffix).plan).1

def operations (suffix : Nat → String) (arrangement : Arrangement) (rehearsal : Rehearsal) :
    List (Operation SlotPool) :=
  .pass (SlotPool.evaluate suffix) [] :: (rehearsal.reports suffix arrangement).map .route

variable {suffix : Nat → String} {arrangement : Arrangement} {rehearsal : Rehearsal}

theorem run_operations (suffix : Nat → String) (arrangement : Arrangement)
    (rehearsal : Rehearsal) :
    Session.run ⟨rehearsal.plan, rehearsal.pool⟩ (rehearsal.operations suffix arrangement) =
      ⟨(rehearsal.round suffix arrangement).plan, (rehearsal.round suffix arrangement).pool⟩ :=
  Session.run_routes ⟨(rehearsal.pass suffix).plan, (rehearsal.pass suffix).evaluator⟩
    (rehearsal.reports suffix arrangement)

theorem simulated_operations (suffix : Nat → String) (arrangement : Arrangement)
    (rehearsal : Rehearsal) :
    ∀ operation ∈ rehearsal.operations suffix arrangement, operation.Simulated suffix := by
  intro operation member
  rcases List.mem_cons.mp member with first | later
  · rw [first]
    rfl
  · obtain ⟨report, _, same⟩ := List.mem_map.mp later
    rw [← same]
    trivial

/-- A launched step after a round: it has settled, and if it did not complete, then a
task whose name was to fail has failed. -/
structure Heard (suffix : Nat → String) (arrangement : Arrangement) (rehearsal : Rehearsal)
    (launched new : Step) : Prop where
  errors : new.errors = launched.errors
  quiet : ∀ task ∈ new.tasks, task.status ≠ .starting
  outcome : new.status = .complete ∨ new.status = .pending ∧
    ∃ name, name ∈ rehearsal.cluster.failing ∧
      name ∉ (rehearsal.round suffix arrangement).cluster.failing

/-- How things are between two rounds, on the way from a built plan. -/
structure Settled (suffix : Nat → String) (built : Plan Step) (rehearsal : Rehearsal) :
    Prop where
  declared : rehearsal.plan.declared = built
  runs : rehearsal.plan.Uninterrupted
  invalid : rehearsal.plan.InvalidUntouched
  /-- Under a serial plan nothing was begun, let alone completed, out of order. -/
  begun : ∀ ⦃first second a b⦄, rehearsal.plan.PhasesBefore first second →
    rehearsal.plan.stepAt? first = some a → rehearsal.plan.stepAt? second = some b →
    ¬ b.Untouched → a.status = .complete
  accounted : rehearsal.plan.Accounted suffix rehearsal.pool.launched
  free : rehearsal.pool.free = none
  /-- The cluster knows no id that a later launch can have. -/
  reported : ∀ id ∈ rehearsal.cluster.reported, ∃ name number,
    number ≤ rehearsal.pool.launched ∧ id = TaskId.compose name (suffix number)
  /-- Every launched task was heard of. -/
  quiet : ∀ ⦃location step⦄, rehearsal.plan.stepAt? location = some step →
    ∀ task ∈ step.tasks, task.status ≠ .starting
  /-- What is valid and not complete waits to be launched again. -/
  waiting : ∀ ⦃location step⦄, rehearsal.plan.stepAt? location = some step →
    step.errors = [] → step.status ≠ .complete → step.status = .pending

namespace Settled

variable {built : Plan Step} {file : ServiceFile}

theorem start (suffix : Nat → String) (accepted : Plan.ofService file = .ok built)
    (failing : List String) :
    Settled suffix built (Rehearsal.start built failing) where
  declared := Plan.declared_built accepted
  runs := by
    rw [Plan.ofService_eq_ok accepted]
    refine ⟨rfl, ?_⟩
    intro place phase found
    obtain ⟨pod, _, same⟩ := List.mem_map.mp (List.mem_of_getElem? found)
    rw [← same]
    rfl
  invalid := fun _ _ found _ => Plan.untouched_of_declared (Plan.declared_built accepted) found
  begun := by
    intro first second a b _ _ atSecond begun
    exact False.elim
      (begun (Plan.untouched_of_declared (Plan.declared_built accepted) atSecond))
  accounted := Plan.Accounted.of_declared (Plan.declared_built accepted) _
  free := rfl
  reported := by
    intro id impossible
    cases impossible
  quiet := by
    intro location step found task member
    rw [(Plan.untouched_of_declared (Plan.declared_built accepted) found).tasks] at member
    cases member
  waiting := by
    intro location step found valid _
    rw [(Plan.untouched_of_declared (Plan.declared_built accepted) found).status,
      Step.restingStatus, valid]
    rfl

theorem notices_iff (settled : Settled suffix built rehearsal) (fresh : TaskId.Fresh suffix)
    (accepted : Plan.ofService file = .ok built) {location : Location} {step : Step}
    (found : (rehearsal.pass suffix).plan.stepAt? location = some step) {task : TrackedTask}
    (member : task ∈ step.tasks) :
    rehearsal.cluster.notices task = true ↔ location ∈ rehearsal.plan.candidateSteps [] := by
  have passed := (Plan.runPass_launches suffix accepted settled.declared settled.free []).1
  obtain ⟨old, atBefore, related⟩ := passed.step_after found
  rw [Cluster.notices_iff]
  by_cases candidate : location ∈ rehearsal.plan.candidateSteps []
  · rw [if_pos candidate] at related
    obtain ⟨_, _, launched⟩ := related
    refine ⟨fun _ => candidate, fun _ => ⟨launched.starting task member, ?_⟩⟩
    intro known
    obtain ⟨name, early, bounded, id⟩ := settled.reported task.taskId known
    obtain ⟨late, above, origin⟩ := launched.launched task member
    have numbers : late = early := by
      rw [TrackedTask.taskId, origin.taskId_eq] at id
      exact fresh.number_eq id
    omega
  · rw [if_neg candidate] at related
    rw [related] at member
    constructor
    · intro noticed
      exact False.elim (settled.quiet atBefore task member noticed.1)
    · intro impossible
      exact False.elim (candidate impossible)

theorem answers (settled : Settled suffix built rehearsal) (fresh : TaskId.Fresh suffix)
    (arrangement : Arrangement) :
    ∃ fails, Cluster.Answers rehearsal.cluster
      ((rehearsal.pass suffix).plan.steps.flatMap (Step.trackedTasks arrangement)) fails
      (rehearsal.reports suffix arrangement) (rehearsal.round suffix arrangement).cluster :=
  rehearsal.cluster.observeAll_answers
    ((settled.accounted.runPass fresh []).nodup_tracked arrangement)

/-- Every task of a launched step was noticed, so every task has its verdict when the
reports are routed. -/
theorem verdicts (settled : Settled suffix built rehearsal) (fresh : TaskId.Fresh suffix)
    (accepted : Plan.ofService file = .ok built) {location : Location} {old step : Step}
    (candidate : location ∈ rehearsal.plan.candidateSteps [])
    (found : (rehearsal.pass suffix).plan.stepAt? location = some step)
    (launched : Step.LaunchedAnew suffix rehearsal.pool.launched old step)
    {fails : TaskId → Bool}
    (answers : Cluster.Answers rehearsal.cluster
      ((rehearsal.pass suffix).plan.steps.flatMap (Step.trackedTasks arrangement)) fails
      (rehearsal.reports suffix arrangement) (rehearsal.round suffix arrangement).cluster) :
    ((rehearsal.reports suffix arrangement).foldl Step.update step).Underway ∧
      ∀ task ∈ ((rehearsal.reports suffix arrangement).foldl Step.update step).tasks,
        ∃ held ∈ step.tasks, task.status = Cluster.verdict (fails held.taskId) := by
  have accounted := settled.accounted.runPass fresh []
  have underway : step.Underway :=
    ⟨launched.occupied, accounted.distinct found,
      fun task member => accounted.goalOf_eq fresh found member, launched.derived⟩
  have told := underway.answers fails
    (((rehearsal.pass suffix).plan.steps.flatMap (Step.trackedTasks arrangement)).filter
      rehearsal.cluster.notices)
    ((accounted.nodup_tracked arrangement).sublist
      (List.filter_sublist.map TrackedTask.taskId))
    (by
      intro task member
      exact (Cluster.notices_iff.mp (List.mem_filter.mp member).2).1)
    (by
      intro task member
      obtain ⟨other, holder, atOther, inHolder⟩ :=
        Plan.mem_tracked_iff.mp (List.mem_filter.mp member).1
      by_cases here : other = location
      · subst here
        rw [found] at atOther
        cases atOther
        exact Or.inl inHolder
      · right
        intro tracked inStep same
        exact here (accounted.apart found atOther tracked inStep task inHolder same).symm)
  rw [← answers.reports] at told
  obtain ⟨last, tasks⟩ := told
  refine ⟨last, ?_⟩
  intro task member
  rw [tasks] at member
  obtain ⟨held, inStep, same⟩ := List.mem_map.mp member
  have noticed := (settled.notices_iff fresh accepted found inStep).mpr candidate
  have listed : held.taskId ∈
      (((rehearsal.pass suffix).plan.steps.flatMap (Step.trackedTasks arrangement)).filter
        rehearsal.cluster.notices).map TrackedTask.taskId :=
    List.mem_map_of_mem (List.mem_filter.mpr
      ⟨Plan.mem_tracked_iff.mpr ⟨location, step, found, inStep⟩, noticed⟩)
  rw [if_pos listed] at same
  exact ⟨held, inStep, by rw [← same, TrackedTask.status_withStatus]⟩

theorem heard (settled : Settled suffix built rehearsal) (fresh : TaskId.Fresh suffix)
    (accepted : Plan.ofService file = .ok built) {location : Location} {old step : Step}
    (candidate : location ∈ rehearsal.plan.candidateSteps [])
    (found : (rehearsal.pass suffix).plan.stepAt? location = some step)
    (launched : Step.LaunchedAnew suffix rehearsal.pool.launched old step) :
    rehearsal.Heard suffix arrangement old
      ((rehearsal.reports suffix arrangement).foldl Step.update step) := by
  obtain ⟨fails, answers⟩ := settled.answers fresh arrangement
  obtain ⟨underway, verdicts⟩ :=
    settled.verdicts fresh accepted candidate found launched answers
  refine ⟨(step.foldl_update_frame _).2.1.trans launched.errors, ?_, ?_⟩
  · intro task member
    obtain ⟨held, _, status⟩ := verdicts task member
    rw [status, Cluster.verdict]
    split
    · exact Status.noConfusion
    · exact Status.noConfusion
  -- the status of the step is the verdict on one of its tasks
  · have least : ((rehearsal.reports suffix arrangement).foldl Step.update step).status ∈
        ((rehearsal.reports suffix arrangement).foldl Step.update step).tasks.map (·.status) := by
      rw [underway.derived]
      exact Status.aggregate_mem (by simpa using underway.occupied)
    obtain ⟨task, member, same⟩ := List.mem_map.mp least
    obtain ⟨held, inStep, status⟩ := verdicts task member
    rw [← same, status]
    cases failed : fails held.taskId with
    | false => exact Or.inl rfl
    | true =>
        have noticed := (settled.notices_iff fresh accepted found inStep).mpr candidate
        have used := answers.usedUp held
          (Plan.mem_tracked_iff.mpr ⟨location, step, found, inStep⟩) noticed failed
        exact Or.inr ⟨rfl, held.descriptor.name, used⟩

theorem unheard (settled : Settled suffix built rehearsal) (fresh : TaskId.Fresh suffix)
    (accepted : Plan.ofService file = .ok built) {location : Location} {step : Step}
    (passed : location ∉ rehearsal.plan.candidateSteps [])
    (found : (rehearsal.pass suffix).plan.stepAt? location = some step) :
    (rehearsal.reports suffix arrangement).foldl Step.update step = step := by
  have accounted := settled.accounted.runPass fresh []
  obtain ⟨fails, answers⟩ := settled.answers fresh arrangement
  apply Step.foldl_update_of_untracked
  intro report member tracked inStep same
  rw [answers.reports] at member
  obtain ⟨task, noticed, inReports⟩ := List.mem_flatMap.mp member
  rw [Cluster.taskId_of_said _ inReports] at same
  obtain ⟨listed, sees⟩ := List.mem_filter.mp noticed
  obtain ⟨other, holder, atOther, inHolder⟩ := Plan.mem_tracked_iff.mp listed
  have here : location = other := accounted.apart found atOther tracked inStep task inHolder same
  rw [here] at passed
  exact passed ((settled.notices_iff fresh accepted atOther inHolder).mp sees)

theorem round_evolves (settled : Settled suffix built rehearsal) (fresh : TaskId.Fresh suffix)
    (accepted : Plan.ofService file = .ok built) (arrangement : Arrangement) :
    Plan.Evolves (fun location old new =>
        if location ∈ rehearsal.plan.candidateSteps [] then
          old.errors = [] ∧ old.status ≠ .complete ∧ rehearsal.Heard suffix arrangement old new
        else new = old)
      rehearsal.plan (rehearsal.round suffix arrangement).plan := by
  have launched := (Plan.runPass_launches suffix accepted settled.declared settled.free []).1
  have routed := (Plan.Evolves.of_routeAll (rehearsal.pass suffix).plan
    (rehearsal.reports suffix arrangement)).attach
  refine launched.trans routed ?_
  intro location old middle new first second
  obtain ⟨found, told⟩ := second
  rw [told]
  by_cases candidate : location ∈ rehearsal.plan.candidateSteps []
  · rw [if_pos candidate] at first ⊢
    obtain ⟨valid, unfinished, anew⟩ := first
    exact ⟨valid, unfinished, settled.heard fresh accepted candidate found anew⟩
  · rw [if_neg candidate] at first ⊢
    rw [settled.unheard fresh accepted candidate found, first]

theorem round (settled : Settled suffix built rehearsal) (fresh : TaskId.Fresh suffix)
    (accepted : Plan.ofService file = .ok built) :
    Settled suffix built (rehearsal.round suffix arrangement) := by
  have evolves := settled.round_evolves fresh accepted arrangement
  have accounted := Session.accounted_run fresh ⟨rehearsal.plan, rehearsal.pool⟩
    (simulated_operations suffix arrangement rehearsal) settled.accounted
  have declared := Session.declared_run ⟨rehearsal.plan, rehearsal.pool⟩
    (rehearsal.operations suffix arrangement)
  rw [run_operations] at accounted declared
  obtain ⟨_, free, more⟩ := Plan.runPass_launches suffix accepted settled.declared settled.free []
  exact {
    declared := declared.trans settled.declared
    runs := (settled.runs.runPass _ _ _).routeAll _
    invalid := by
      intro location step found faulty
      obtain ⟨old, atBefore, related⟩ := evolves.step_after found
      split at related
      · rw [related.2.2.errors, related.1] at faulty
        exact False.elim (faulty rfl)
      · rw [related] at faulty ⊢
        exact settled.invalid atBefore faulty
    begun := by
      intro first second a b precedes atFirst atSecond begun
      have before := evolves.phasesBefore_iff.mp precedes
      obtain ⟨oldFirst, foundFirst, relatedFirst⟩ := evolves.step_after atFirst
      obtain ⟨oldSecond, foundSecond, relatedSecond⟩ := evolves.step_after atSecond
      have complete : oldFirst.status = .complete := by
        by_cases candidate : second ∈ rehearsal.plan.candidateSteps []
        · exact Plan.phasesBefore_complete before candidate foundFirst
        · rw [if_neg candidate] at relatedSecond
          rw [relatedSecond] at begun
          exact settled.begun before foundFirst foundSecond begun
      split at relatedFirst
      · exact False.elim (relatedFirst.2.1 complete)
      · rw [relatedFirst]
        exact complete
    accounted
    free
    reported := by
      intro id member
      obtain ⟨fails, answers⟩ := settled.answers fresh arrangement
      rcases answers.reported id member with before | ⟨task, listed, same⟩
      · obtain ⟨name, number, bounded, composed⟩ := settled.reported id before
        exact ⟨name, number, Nat.le_trans bounded more, composed⟩
      · obtain ⟨location, step, found, inStep⟩ := Plan.mem_tracked_iff.mp listed
        obtain ⟨number, bounded, origin⟩ :=
          (settled.accounted.runPass fresh []).launched found task inStep
        refine ⟨task.descriptor.name, number, bounded, ?_⟩
        rw [← same]
        exact origin.taskId_eq
    quiet := by
      intro location step found
      obtain ⟨old, atBefore, related⟩ := evolves.step_after found
      split at related
      · exact related.2.2.quiet
      · rw [related]
        exact settled.quiet atBefore
    waiting := by
      intro location step found valid unfinished
      obtain ⟨old, atBefore, related⟩ := evolves.step_after found
      split at related
      · rcases related.2.2.outcome with complete | ⟨pending, _⟩
        · exact False.elim (unfinished complete)
        · exact pending
      · rw [related] at valid unfinished ⊢
        exact settled.waiting atBefore valid unfinished }

/-- Without candidates a round changes nothing at all. -/
theorem round_of_idle (settled : Settled suffix built rehearsal)
    (idle : rehearsal.plan.candidateSteps [] = []) :
    rehearsal.round suffix arrangement = rehearsal := by
  have passed : rehearsal.plan.runPass (SlotPool.evaluate suffix) rehearsal.pool [] =
      ⟨rehearsal.plan, rehearsal.pool, .empty⟩ := by
    rw [Plan.runPass, idle]
    rfl
  have silent : rehearsal.cluster.reports arrangement rehearsal.plan =
      ([], rehearsal.cluster) := by
    apply Cluster.observeAll_of_unnoticed
    intro task listed
    obtain ⟨location, step, found, member⟩ := Plan.mem_tracked_iff.mp listed
    rw [Bool.eq_false_iff]
    intro noticed
    exact settled.quiet found task member (Cluster.notices_iff.mp noticed).1
  unfold Rehearsal.round
  rw [passed]
  simp only [silent]
  rfl

end Settled

/-- What can still happen: steps to complete and tasks to fail. -/
def remaining (rehearsal : Rehearsal) : Nat :=
  rehearsal.plan.unfinished.card + rehearsal.cluster.failing.toFinset.card

namespace Settled

variable {built : Plan Step} {file : ServiceFile}

theorem round_failing (settled : Settled suffix built rehearsal) (fresh : TaskId.Fresh suffix)
    (arrangement : Arrangement) :
    (rehearsal.round suffix arrangement).cluster.failing.toFinset ⊆
      rehearsal.cluster.failing.toFinset := by
  obtain ⟨fails, answers⟩ := settled.answers fresh arrangement
  intro name member
  rw [List.mem_toFinset] at member ⊢
  exact answers.failing member

theorem round_unfinished (settled : Settled suffix built rehearsal)
    (fresh : TaskId.Fresh suffix) (accepted : Plan.ofService file = .ok built)
    (arrangement : Arrangement) :
    (rehearsal.round suffix arrangement).plan.unfinished ⊆ rehearsal.plan.unfinished := by
  intro location member
  obtain ⟨step, found, unfinished⟩ := Plan.mem_unfinished_iff.mp member
  obtain ⟨old, atBefore, related⟩ :=
    (settled.round_evolves fresh accepted arrangement).step_after found
  apply Plan.mem_unfinished_iff.mpr
  split at related
  · exact ⟨old, atBefore, related.2.1⟩
  · exact ⟨old, atBefore, related ▸ unfinished⟩

/-- A round with candidates completes one of them or uses up a name. -/
theorem remaining_round (settled : Settled suffix built rehearsal)
    (fresh : TaskId.Fresh suffix) (accepted : Plan.ofService file = .ok built)
    (arrangement : Arrangement)
    (busy : rehearsal.plan.candidateSteps [] ≠ []) :
    (rehearsal.round suffix arrangement).remaining < rehearsal.remaining := by
  obtain ⟨location, rest, first⟩ := List.exists_cons_of_ne_nil busy
  have candidate : location ∈ rehearsal.plan.candidateSteps [] := by
    rw [first]
    exact List.mem_cons_self
  obtain ⟨old, atBefore, _⟩ := Plan.eligible_of_mem_candidateSteps candidate
  have evolves := settled.round_evolves fresh accepted arrangement
  obtain ⟨new, atAfter, related⟩ := evolves.steps atBefore
  rw [if_pos candidate] at related
  obtain ⟨_, unfinished, heard⟩ := related
  have steps := Finset.card_le_card (settled.round_unfinished fresh accepted arrangement)
  have names := Finset.card_le_card (settled.round_failing fresh arrangement)
  unfold remaining
  rcases heard.outcome with complete | ⟨_, name, listed, gone⟩
  · have fewer : (rehearsal.round suffix arrangement).plan.unfinished ⊂
        rehearsal.plan.unfinished := by
      rw [Finset.ssubset_iff_of_subset (settled.round_unfinished fresh accepted arrangement)]
      refine ⟨location, Plan.mem_unfinished_iff.mpr ⟨old, atBefore, unfinished⟩, ?_⟩
      intro still
      obtain ⟨step, found, stays⟩ := Plan.mem_unfinished_iff.mp still
      rw [atAfter] at found
      cases found
      exact stays complete
    have strictly := Finset.card_lt_card fewer
    omega
  · have fewer : (rehearsal.round suffix arrangement).cluster.failing.toFinset ⊂
        rehearsal.cluster.failing.toFinset := by
      rw [Finset.ssubset_iff_of_subset (settled.round_failing fresh arrangement)]
      refine ⟨name, List.mem_toFinset.mpr listed, ?_⟩
      rw [List.mem_toFinset]
      exact gone
    have strictly := Finset.card_lt_card fewer
    omega

end Settled

end Rehearsal

end Rollout
