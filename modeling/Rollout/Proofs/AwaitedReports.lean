import Mathlib.Data.List.Induction
import Rollout.Proofs.InvalidPods
import Rollout.Proofs.Redeployment

/-! What a starting step waits for.  One of its tasks is starting, and of the reports on it since
its launch the latest that a step expects has it under way.  A failure or an end can therefore
stand among these reports only if a later one took the task on again.  Reports that no step
expects change nothing, even where they say that the task is gone. -/

namespace Rollout

namespace TaskState

def isUnderway : TaskState → Bool
  | .staging | .starting | .running => true
  | _ => false

def isUnexpected : TaskState → Bool
  | .dropped | .unreachable | .gone | .unknown => true
  | _ => false

theorem dropped_or_gone {state : TaskState} (terminal : state.isTerminal = true)
    (unexpected : state.isUnexpected = true) : state = .dropped ∨ state = .gone := by
  cases state <;> simp_all [isTerminal, isUnexpected]

theorem not_underway_of_terminal {state : TaskState} (terminal : state.isTerminal = true) :
    state.isUnderway = false := by
  cases state <;> simp_all [isTerminal, isUnderway]

end TaskState

def latestExpected? (reports : List TaskReport) : Option TaskReport :=
  reports.reverse.find? fun report => !report.state.isUnexpected

/-- Reports that leave a task under way, in the order in which they came. -/
structure LeaveUnderway (reports : List TaskReport) : Prop where
  latest : ∀ report, latestExpected? reports = some report → report.state.isUnderway = true
  terminal : ∀ early report late, reports = early ++ report :: late →
    report.state.isTerminal = true → report.state = .dropped ∨ report.state = .gone ∨
      ∃ later ∈ late, later.state.isUnderway = true

namespace LeaveUnderway

theorem of_latest {reports : List TaskReport}
    (latest : ∀ report, latestExpected? reports = some report →
      report.state.isUnderway = true) : LeaveUnderway reports where
  latest := latest
  terminal := by
    intro early report late split terminal
    cases expected : report.state.isUnexpected with
    | true => exact (TaskState.dropped_or_gone terminal expected).imp_right Or.inl
    | false =>
        have last : latestExpected? reports =
            (late.reverse.find? fun later => !later.state.isUnexpected).or (some report) := by
          simp [latestExpected?, split, List.find?_append, expected]
        cases after : late.reverse.find? fun later => !later.state.isUnexpected with
        | none =>
            rw [after] at last
            have underway := latest report last
            rw [TaskState.not_underway_of_terminal terminal] at underway
            cases underway
        | some later =>
            rw [after] at last
            have inLate := List.mem_reverse.mp (List.mem_of_find?_eq_some after)
            exact Or.inr (Or.inr ⟨later, inLate, latest later last⟩)

theorem nil : LeaveUnderway [] :=
  of_latest fun _ none => by cases none

theorem concat_unexpected {reports : List TaskReport} (before : LeaveUnderway reports)
    {report : TaskReport} (unexpected : report.state.isUnexpected = true) :
    LeaveUnderway (reports ++ [report]) := by
  apply of_latest
  have same : latestExpected? (reports ++ [report]) = latestExpected? reports := by
    simp [latestExpected?, unexpected]
  rw [same]
  exact before.latest

theorem concat_underway (reports : List TaskReport) {report : TaskReport}
    (underway : report.state.isUnderway = true) : LeaveUnderway (reports ++ [report]) := by
  apply of_latest
  intro last ends
  have expected : report.state.isUnexpected = false := by
    cases state : report.state <;> simp_all [TaskState.isUnderway, TaskState.isUnexpected]
  have same : latestExpected? (reports ++ [report]) = some report := by
    simp [latestExpected?, expected]
  rw [same] at ends
  cases ends
  exact underway

end LeaveUnderway

/-! ### One action -/

namespace Step

theorem unexpected_of_statusAfter {report : TaskReport} {goal : Goal} {task : TaskDescriptor}
    (unmoved : statusAfter report goal task = none) : report.state.isUnexpected = true := by
  unfold statusAfter at unmoved
  cases state : report.state with
  | dropped | unreachable | gone | unknown => rfl
  | running =>
      simp only [state] at unmoved
      split at unmoved <;> cases unmoved
  | finished =>
      simp only [state] at unmoved
      split at unmoved <;> cases unmoved
  | _ => simp [state] at unmoved

theorem underway_of_statusAfter {report : TaskReport} {goal : Goal} {task : TaskDescriptor}
    (starting : statusAfter report goal task = some .starting) :
    report.state.isUnderway = true := by
  unfold statusAfter at starting
  cases state : report.state with
  | staging | starting | running => rfl
  | finished =>
      simp only [state] at starting
      split at starting <;> cases starting
  | _ => simp [state] at starting

theorem Supplied.starting_of_report {suffix : Nat → String} {step : Step}
    (supplied : step.Supplied suffix) (legible : TaskId.Legible suffix) {held task : TrackedTask}
    (inOld : held ∈ step.tasks) {report : TaskReport} (about : report.taskId = held.taskId)
    (atEnd : TrackedTask.find? (step.update report).tasks report.taskId = some task)
    (starting : task.status = .starting) :
    report.state.isUnderway = true ∨
      held.status = .starting ∧ report.state.isUnexpected = true := by
  have coherent := supplied.coherent_of_mem inOld
  have found := TrackedTask.find?_of_mem coherent.distinct inOld
  obtain ⟨number, launched⟩ := supplied.launched held inOld
  have resolved : step.goalOf held.taskId = .ok held.descriptor.goal :=
    goalOf_launched legible launched
  rw [← about] at found resolved
  have unfinished : step.status ≠ .complete := by
    -- a complete step takes no report, and its tasks are complete
    intro complete
    rw [update_of_complete report complete, found] at atEnd
    cases atEnd
    rw [coherent.status_of_complete complete inOld] at starting
    cases starting
  rw [find?_update_self unfinished found, transition?_of_goal resolved] at atEnd
  cases moves : statusAfter report held.descriptor.goal held.descriptor with
  | none =>
      rw [moves] at atEnd
      cases atEnd
      exact Or.inr ⟨starting, unexpected_of_statusAfter moves⟩
  | some status =>
      rw [moves] at atEnd
      cases atEnd
      have same : status = .starting := starting
      rw [same] at moves
      exact Or.inl (underway_of_statusAfter moves)

/-- Whatever is done to a step but an offer, a starting task still is under way by the
reports on it. -/
theorem Supplied.held_of_act {suffix : Nat → String} {step : Step}
    (supplied : step.Supplied suffix) (legible : TaskId.Legible suffix) {action : Action}
    (noOffer : ∀ recommendations, action ≠ .offer recommendations) {task : TrackedTask}
    (member : task ∈ (step.act action).tasks) :
    ∃ held ∈ step.tasks, held.taskId = task.taskId ∧
      ∀ reports, (held.status = .starting → LeaveUnderway reports) →
        task.status = .starting →
        LeaveUnderway (reports ++ ((Call.act action).reportOn? task.taskId).toList) := by
  obtain ⟨held, inOld, descriptor⟩ := (step.retains_act action noOffer).held member
  have sameId : held.taskId = task.taskId := congrArg TaskDescriptor.taskId descriptor
  refine ⟨held, inOld, sameId, ?_⟩
  intro reports before starting
  have coherent := supplied.coherent_of_mem inOld
  have found := TrackedTask.find?_of_mem coherent.distinct inOld
  have atEnd := TrackedTask.find?_of_mem (coherent.act action).distinct member
  rw [sameId] at found
  cases action with
  | offer recommendations => exact False.elim (noOffer recommendations rfl)
  | parameters values =>
      have still : task = held := Option.some.inj (atEnd.symm.trans found)
      rw [still] at starting
      simpa [Call.reportOn?] using before starting
  | restart => cases member
  | complete =>
      obtain ⟨_, _, same⟩ := List.mem_map.mp member
      rw [← same] at starting
      cases starting
  | report report =>
      change TrackedTask.find? (step.update report).tasks task.taskId = some task at atEnd
      by_cases about : report.taskId = task.taskId
      · have recorded : ((Call.act (.report report)).reportOn? task.taskId).toList = [report] := by
          simp [Call.reportOn?, about]
        rw [recorded]
        rw [← about] at atEnd
        rcases supplied.starting_of_report legible inOld (about.trans sameId.symm) atEnd starting
          with underway | ⟨same, unexpected⟩
        · exact .concat_underway reports underway
        · exact (before same).concat_unexpected unexpected
      · have recorded : ((Call.act (.report report)).reportOn? task.taskId).toList = [] := by
          simp [Call.reportOn?, about]
        rw [recorded, List.append_nil]
        rw [find?_update_of_ne (Ne.symm about), found] at atEnd
        have still : task = held := (Option.some.inj atEnd).symm
        rw [still] at starting
        exact before starting

end Step

/-! ### Launches -/

namespace Plan

def Tracks (plan : Plan Step) (location : Location) (id : TaskId) : Prop :=
  ∃ step, plan.stepAt? location = some step ∧ ∃ task ∈ step.tasks, task.taskId = id

namespace Accounted

variable {suffix : Nat → String} {plan : Plan Step}

theorem mono {used next : Nat} (accounted : plan.Accounted suffix used) (more : used ≤ next) :
    plan.Accounted suffix next where
  launched := by
    intro location step found task member
    obtain ⟨number, bounded, launched⟩ := accounted.launched found task member
    exact ⟨number, Nat.le_trans bounded more, launched⟩
  distinct := accounted.distinct
  apart := accounted.apart

theorem pass_cases {pool : SlotPool} (accounted : plan.Accounted suffix pool.launched)
    (fresh : TaskId.Fresh suffix) {dirty : List String} {location : Location} {step : Step}
    (found : (plan.runPass (SlotPool.evaluate suffix) pool dirty).plan.stepAt? location =
      some step) :
    ∃ old, plan.stepAt? location = some old ∧ (step = old ∨ step = old.updateOffer [] ∨
      ∀ task ∈ step.tasks, ¬ plan.Tracks location task.taskId) := by
  have considers := (plan.runPass_considers (SlotPool.evaluate suffix) pool dirty
    (fun state => pool.launched ≤ state.launched)
    (fun requirement state below =>
      Nat.le_trans below (SlotPool.evaluate_launched_le requirement state))
    (Nat.le_refl _)).1
  obtain ⟨old, atBefore, related⟩ := considers.step_after found
  refine ⟨old, atBefore, ?_⟩
  split at related
  · obtain ⟨state, more, same⟩ := related
    rw [same]
    rcases old.considered_cases state with refused | unmatched | relaunched
    · exact Or.inl refused
    · exact Or.inr (Or.inl unmatched)
    · right
      right
      -- what was tracked before was launched under a number that is not used again
      rintro task member ⟨again, atAgain, held, inOld, equal⟩
      rw [atBefore] at atAgain
      cases atAgain
      exact (accounted.mono more).ne_relaunched fresh atBefore (Step.Retains.refl old) relaunched
        inOld member equal
  · exact Or.inl related

end Accounted

end Plan

def Operation.reportOn? {σ : Type} (location : Location) (id : TaskId)
    (operation : Operation σ) : Option TaskReport :=
  (operation.actionAt location).bind fun action => (Step.Call.act action).reportOn? id

namespace Session

variable {σ : Type}

/-- The reports on a task since its launch: since the pass from which on the step at a
location has tracked it. -/
def SinceLaunch (session : Session σ) (operations : List (Operation σ)) (location : Location)
    (id : TaskId) (reports : List TaskReport) : Prop :=
  ∃ early evaluate dirty late, operations = early ++ .pass evaluate dirty :: late ∧
    ¬ (session.run early).plan.Tracks location id ∧
    (∀ middle, middle <+: late →
      (session.run (early ++ .pass evaluate dirty :: middle)).plan.Tracks location id) ∧
    reports = late.filterMap (Operation.reportOn? location id)

theorem SinceLaunch.concat {session : Session σ} {operations : List (Operation σ)}
    {location : Location} {id : TaskId} {reports : List TaskReport}
    (since : session.SinceLaunch operations location id reports) {last : Operation σ}
    (tracked : (session.run (operations ++ [last])).plan.Tracks location id) :
    session.SinceLaunch (operations ++ [last]) location id
      (reports ++ (last.reportOn? location id).toList) := by
  obtain ⟨early, evaluate, dirty, late, split, before, after, same⟩ := since
  have whole : operations ++ [last] = early ++ .pass evaluate dirty :: (late ++ [last]) := by
    rw [split, List.append_assoc, List.cons_append]
  refine ⟨early, evaluate, dirty, late ++ [last], whole, before, ?_, ?_⟩
  · intro middle earlier
    rcases List.prefix_concat_iff.mp earlier with all | inLate
    · rw [all, ← whole]
      exact tracked
    · exact after middle inLate
  · rw [same, List.filterMap_append, List.filterMap_cons]
    cases last.reportOn? location id <;> rfl

/-- Every tracked task was launched, and is starting only as its reports leave it. -/
def Awaits (session : Session SlotPool) (operations : List (Operation SlotPool)) : Prop :=
  ∀ ⦃location step⦄, (session.run operations).plan.stepAt? location = some step →
    ∀ task ∈ step.tasks, ∃ reports,
      session.SinceLaunch operations location task.taskId reports ∧
        (task.status = .starting → LeaveUnderway reports)

section

variable {suffix : Nat → String} {session : Session SlotPool}
  {operations : List (Operation SlotPool)}

theorem Awaits.pass (awaits : session.Awaits operations) (fresh : TaskId.Fresh suffix)
    (accounted : (session.run operations).plan.Accounted suffix
      (session.run operations).evaluator.launched) (dirty : List String) :
    session.Awaits (operations ++ [.pass (SlotPool.evaluate suffix) dirty]) := by
  intro location step found task member
  have tracked : (session.run
      (operations ++ [.pass (SlotPool.evaluate suffix) dirty])).plan.Tracks location
        task.taskId := ⟨step, found, task, member, rfl⟩
  rw [run_concat] at found
  obtain ⟨old, atBefore, same | unmatched | launched⟩ := accounted.pass_cases fresh found
  · rw [same] at member
    obtain ⟨reports, since, underway⟩ := awaits atBefore task member
    exact ⟨reports ++ [], since.concat tracked, by rwa [List.append_nil]⟩
  · rw [unmatched, Step.updateOffer_nil_tasks] at member
    obtain ⟨held, inOld, rfl⟩ := List.mem_map.mp member
    obtain ⟨reports, since, _⟩ := awaits atBefore held inOld
    refine ⟨_, since.concat tracked, ?_⟩
    intro starting
    cases starting
  · refine ⟨[], ⟨operations, _, dirty, [], rfl, launched task member, ?_, rfl⟩, fun _ => .nil⟩
    intro middle none
    rw [List.prefix_nil.mp none]
    exact tracked

theorem Awaits.quiet (awaits : session.Awaits operations) (legible : TaskId.Legible suffix)
    (supplied : ∀ ⦃location step⦄, (session.run operations).plan.stepAt? location = some step →
      step.Supplied suffix) {last : Operation SlotPool} (brokered : last.Brokered)
    (noPass : ∀ evaluate dirty, last ≠ .pass evaluate dirty) :
    session.Awaits (operations ++ [last]) := by
  intro location step found task member
  have tracked : (session.run (operations ++ [last])).plan.Tracks location task.taskId :=
    ⟨step, found, task, member, rfl⟩
  rw [run_concat] at found
  obtain ⟨old, atBefore, related⟩ := (last.perform_evolves _ noPass).step_after found
  cases acts : last.actionAt location with
  | none =>
      rw [acts] at related
      rw [related] at member
      obtain ⟨reports, since, underway⟩ := awaits atBefore task member
      have nothing : last.reportOn? location task.taskId = none := by
        rw [Operation.reportOn?, acts]
        rfl
      have later := since.concat tracked
      rw [nothing] at later
      exact ⟨reports ++ [], later, by rwa [List.append_nil]⟩
  | some action =>
      rw [acts] at related
      rw [related] at member
      obtain ⟨held, inOld, sameId, leaves⟩ :=
        (supplied atBefore).held_of_act legible (brokered.noOffer acts) member
      obtain ⟨reports, since, underway⟩ := awaits atBefore held inOld
      have delivered : last.reportOn? location task.taskId =
          (Step.Call.act action).reportOn? task.taskId := by
        rw [Operation.reportOn?, acts]
        rfl
      rw [sameId] at since
      have later := since.concat tracked
      rw [delivered] at later
      exact ⟨_, later, leaves reports underway⟩

theorem awaits_run (session : Session SlotPool) (fresh : TaskId.Fresh suffix)
    (untouched : session.plan.declared = session.plan)
    (simulated : ∀ operation ∈ operations, operation.Simulated suffix) :
    session.Awaits operations := by
  induction operations using List.reverseRecOn with
  | nil =>
      intro location step found task member
      rw [(Plan.untouched_of_declared untouched found).tasks] at member
      cases member
  | append_singleton operations last ih =>
      have earlier : ∀ operation ∈ operations, operation.Simulated suffix :=
        fun operation member => simulated operation (List.mem_append_left _ member)
      have permitted : last.Simulated suffix :=
        simulated last (List.mem_append_right _ (List.mem_singleton.mpr rfl))
      have awaits := ih earlier
      -- only a pass can launch; any other operation acts on the step at its location
      have quiet := awaits.quiet fresh.legible (supplied_run session
        (fun _ _ found => .of_untouched (Plan.untouched_of_declared untouched found)) earlier)
        permitted.brokered
      cases last with
      | pass evaluate dirty =>
          have same : evaluate = SlotPool.evaluate suffix := permitted
          subst same
          apply awaits.pass fresh
          exact accounted_run fresh session earlier (Plan.Accounted.of_declared untouched _)
      | _ => exact quiet (by intros; simp)

end

end Session

namespace Plan

/-- In every history of simulated launches, a starting step waits for a task that its
reports leave under way. -/
theorem starting_step_awaits_task {suffix : Nat → String} (fresh : TaskId.Fresh suffix)
    {file : ServiceFile} {plan : Plan Step} (built : ofService file = .ok plan)
    (pool : SlotPool) {operations : List (Operation SlotPool)}
    (simulated : ∀ operation ∈ operations, operation.Simulated suffix)
    {location : Location} {step : Step}
    (found : (Session.run ⟨plan, pool⟩ operations).plan.stepAt? location = some step)
    (starting : step.status = .starting) :
    (∃ task ∈ step.tasks, task.status = .starting) ∧
      ∀ task ∈ step.tasks, task.status = .starting → ∃ reports,
        Session.SinceLaunch ⟨plan, pool⟩ operations location task.taskId reports ∧
          LeaveUnderway reports := by
  have untouched := declared_built built
  have lawful := Session.lawful_run ⟨plan, pool⟩
    (fun _ _ atStart => .of_untouched (untouched_of_declared untouched atStart))
    (fun operation member => (simulated operation member).brokered) found
  have valid : step.errors = [] := by
    apply Decidable.byContradiction
    intro faulty
    rw [(lawful.invalid faulty).status_of_errors faulty] at starting
    cases starting
  refine ⟨(lawful.valid valid).exists_starting starting, ?_⟩
  intro task member underway
  obtain ⟨reports, since, leaves⟩ :=
    Session.awaits_run ⟨plan, pool⟩ fresh untouched simulated found task member
  exact ⟨reports, since, leaves underway⟩

/-- A server that failed and was staged again by itself, and then is reported gone. -/
theorem staged_server_awaited :
    let file := ServiceFile.scaffold "search" "index" 1
    let plan := Plan.new deployName (file.pods.map PodSection.phase) file.planStrategy
    let operations : List (Operation SlotPool) := [.pass (SlotPool.evaluate Nat.repr) [],
      .route (.new "index-0-server__1" .failed), .route (.new "index-0-server__1" .staging),
      .route (.new "index-0-server__1" .gone)]
    let session : Session SlotPool := ⟨plan, SlotPool.unbounded⟩
    ∃ step, (session.run operations).plan.stepAt? ⟨0, 0⟩ = some step ∧
      step.status = .starting ∧
      (∃ task ∈ step.tasks, task.status = .starting) ∧
      ∀ task ∈ step.tasks, task.status = .starting → ∃ reports,
        session.SinceLaunch operations ⟨0, 0⟩ task.taskId reports ∧ LeaveUnderway reports := by
  intro file plan operations session
  have built : ofService file = .ok plan := rfl
  have status : ((session.run operations).plan.stepAt? ⟨0, 0⟩).map (·.status) =
      some .starting := by decide +kernel
  obtain ⟨step, found, starting⟩ := Option.map_eq_some_iff.mp status
  refine ⟨step, found, starting, ?_⟩
  refine starting_step_awaits_task TaskId.fresh_repr built SlotPool.unbounded ?_ found starting
  intro operation inHistory
  simp only [operations, List.mem_cons, List.not_mem_nil, or_false] at inHistory
  rcases inHistory with same | same | same | same
  · subst same
    exact rfl
  all_goals
    subst same
    exact True.intro

/-- A step is starting although its only task was reported gone, and nothing else since its
launch. -/
theorem gone_server_holds_step :
    ¬ ∀ (suffix : Nat → String) (file : ServiceFile) (plan : Plan Step) (pool : SlotPool)
        (operations : List (Operation SlotPool)) (location : Location) (step : Step),
      TaskId.Fresh suffix → ofService file = .ok plan →
      (∀ operation ∈ operations, operation = .pass (SlotPool.evaluate suffix) [] ∨
        ∃ report, operation = .route report) →
      (Session.run ⟨plan, pool⟩ operations).plan.stepAt? location = some step →
      step.status = .starting →
      ∃ task ∈ step.tasks, task.status ≠ .complete ∧ ∃ reports,
        Session.SinceLaunch ⟨plan, pool⟩ operations location task.taskId reports ∧
          ∀ report ∈ reports, report.state.isTerminal = false := by
  intro always
  let file := ServiceFile.scaffold "search" "index" 1
  let plan := Plan.new deployName (file.pods.map PodSection.phase) file.planStrategy
  let gone : Operation SlotPool := .route (.new "index-0-server__1" .gone)
  let operations := [.pass (SlotPool.evaluate Nat.repr) [], gone]
  let reached := (Session.run ⟨plan, SlotPool.unbounded⟩ operations).plan
  have status : (reached.stepAt? ⟨0, 0⟩).map (fun step =>
      (step.status, step.tasks.map TrackedTask.taskId)) =
        some (.starting, ["index-0-server__1"]) := by decide +kernel
  obtain ⟨step, found, shape⟩ := Option.map_eq_some_iff.mp status
  obtain ⟨starting, ids⟩ := Prod.mk.inj shape
  obtain ⟨task, member, _, reports, ⟨early, evaluate, dirty, late, split, _, _, same⟩, open'⟩ :=
    always Nat.repr file plan SlotPool.unbounded operations ⟨0, 0⟩ step TaskId.fresh_repr rfl (by
      intro operation inHistory
      simp only [operations, List.mem_cons, List.not_mem_nil, or_false] at inHistory
      exact inHistory.imp_right fun same => ⟨_, same⟩) found starting
  have id : task.taskId = "index-0-server__1" := by
    have listed := List.mem_map_of_mem (f := TrackedTask.taskId) member
    rw [ids] at listed
    exact List.mem_singleton.mp listed
  -- the pass stands first, so that the report came after the launch
  have after : late = [gone] := by
    match early with
    | [] => exact (List.cons.inj split).2.symm
    | [_] => simp [operations, gone] at split
    | _ :: _ :: _ => simp [operations] at split
  rw [after, id] at same
  rw [same] at open'
  have terminal := open' (.new "index-0-server__1" .gone) (List.mem_singleton.mpr rfl)
  cases terminal

end Plan

end Rollout
