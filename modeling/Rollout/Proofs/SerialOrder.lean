import Rollout.Proofs.Plan.Built
import Rollout.Proofs.Plan.Operations

/-! Serial order.  The order is stored nowhere: a step comes under way only by being picked, which
happens only when everything before it is complete, and no operation but a restart of the whole
plan takes a completion back. -/

namespace Rollout

namespace Step

/-- Neither complete nor untouched: begun and not done. -/
def InProgress (step : Step) : Prop :=
  step.status ≠ .complete ∧ ¬ step.Untouched

/-- Reports, parameters and completion by force begin nothing and undo no
completion. -/
theorem act_advances {step : Step} (inert : step.errors ≠ [] → step.Untouched)
    {action : Action} (noOffer : ∀ recommendations, action ≠ .offer recommendations)
    (noRestart : action ≠ .restart) :
    ((step.act action).InProgress → step.InProgress) ∧
      (step.status = .complete → (step.act action).status = .complete) := by
  cases action with
  | offer recommendations => exact False.elim (noOffer recommendations rfl)
  | restart => exact False.elim (noRestart rfl)
  | report report =>
      change ((step.update report).InProgress → step.InProgress) ∧
        (step.status = .complete → (step.update report).status = .complete)
      constructor
      · rintro ⟨unfinished, begun⟩
        constructor
        · intro complete
          rw [update_of_complete report complete] at unfinished
          exact unfinished complete
        · intro untouched
          rw [untouched.update report] at begun
          exact begun untouched
      · intro complete
        rw [update_of_complete report complete]
        exact complete
  | parameters values =>
      constructor
      · rintro ⟨unfinished, begun⟩
        refine ⟨unfinished, fun untouched => begun ?_⟩
        exact ⟨untouched.status, untouched.tasks, untouched.prepared⟩
      · exact id
  | complete =>
      by_cases errors : step.errors = []
      · have done : (step.act .complete).status = .complete := by
          simp only [act, forceComplete, restingStatus, errors, List.isEmpty_nil, if_true]
        exact ⟨fun active => False.elim (active.1 done), fun _ => done⟩
      · have untouched := inert errors
        have after := untouched.act errors noOffer
        refine ⟨fun active => False.elim (active.2 after), fun complete => ?_⟩
        rw [untouched.status_of_errors errors] at complete
        cases complete

theorem Untouched.not_inProgress {step : Step} (untouched : step.Untouched) :
    ¬ step.InProgress := fun active => active.2 untouched

end Step

namespace Phase

def InProgress (phase : Phase Step) : Prop :=
  ∃ step ∈ phase.steps, step.InProgress

def Done (phase : Phase Step) : Prop :=
  ∀ step ∈ phase.steps, step.status = .complete

theorem isComplete_iff {phase : Phase Step} : Element.isComplete phase = true ↔ phase.Done := by
  change Status.isComplete (Status.ofParts (phase.steps.map (·.status))) = true ↔ _
  rw [Status.isComplete_iff, Status.ofParts_eq_complete_iff]
  constructor
  · intro complete step member
    exact complete step.status (List.mem_map_of_mem member)
  · intro done status member
    obtain ⟨step, inside, same⟩ := List.mem_map.mp member
    rw [← same]
    exact done step inside

end Phase

/-- At most one part is active, and all parts before it are done. -/
structure OneAtATime {α : Type} (active done : α → Prop) (parts : List α) : Prop where
  atMostOne : ∀ {i j : Nat} {a b : α}, parts[i]? = some a → parts[j]? = some b →
    active a → active b → i = j
  doneBefore : ∀ {i j : Nat} {a b : α}, i < j → parts[i]? = some a → parts[j]? = some b →
    active b → done a

theorem OneAtATime.of_doneBefore {α : Type} {active done : α → Prop} {parts : List α}
    (exclusive : ∀ part ∈ parts, active part → ¬ done part)
    (doneBefore : ∀ {i j : Nat} {a b : α}, i < j → parts[i]? = some a →
      parts[j]? = some b → active b → done a) : OneAtATime active done parts where
  doneBefore := doneBefore
  atMostOne := by
    intro i j a b atFirst atSecond first second
    rcases Nat.lt_trichotomy i j with before | same | after
    · exact False.elim (exclusive a (List.mem_of_getElem? atFirst) first
        (doneBefore before atFirst atSecond second))
    · exact same
    · exact False.elim (exclusive b (List.mem_of_getElem? atSecond) second
        (doneBefore after atSecond atFirst first))

namespace Plan

def InvalidUntouched (plan : Plan Step) : Prop :=
  ∀ ⦃location step⦄, plan.stepAt? location = some step → step.errors ≠ [] → step.Untouched

/-- Where a step is under way, the steps that the relation puts before it are
complete. -/
def InOrder (precedes : Location → Location → Prop) (plan : Plan Step) : Prop :=
  ∀ ⦃first second a b⦄, precedes first second → plan.stepAt? first = some a →
    plan.stepAt? second = some b → b.InProgress → a.status = .complete

def PhasesBefore (plan : Plan Step) (first second : Location) : Prop :=
  plan.strategy.kind = .serial ∧ first.phase < second.phase

def StepsBefore (plan : Plan Step) (first second : Location) : Prop :=
  first.phase = second.phase ∧ first.step < second.step ∧
    ∃ phase, plan.phases[first.phase]? = some phase ∧ phase.strategy.kind = .serial

section

variable {R : Location → Step → Step → Prop} {before after : Plan Step}

theorem Evolves.phasesBefore_iff (evolves : Evolves R before after) {first second : Location} :
    after.PhasesBefore first second ↔ before.PhasesBefore first second := by
  have kinds : before.strategy.kind = after.strategy.kind :=
    congrArg (fun outline => outline.2.1) evolves.outline
  simp only [PhasesBefore, kinds]

theorem Evolves.stepsBefore_of (evolves : Evolves R before after) {first second : Location}
    (precedes : after.StepsBefore first second) : before.StepsBefore first second := by
  obtain ⟨phases, steps, phase, found, serial⟩ := precedes
  obtain ⟨old, atBefore, outline⟩ := evolves.phase_after found
  have kinds : old.strategy.kind = phase.strategy.kind :=
    congrArg (fun outline => outline.2.1) outline
  exact ⟨phases, steps, old, atBefore, kinds.trans serial⟩

theorem InOrder.evolves {precedes : Location → Location → Prop}
    (inOrder : InOrder precedes before) (evolves : Evolves R before after)
    (advances : ∀ location old new, R location old new → before.stepAt? location = some old →
      (new.InProgress → old.InProgress) ∧ (old.status = .complete → new.status = .complete)) :
    InOrder precedes after := by
  intro first second a b follows atFirst atSecond active
  obtain ⟨oldFirst, foundFirst, relatedFirst⟩ := evolves.step_after atFirst
  obtain ⟨oldSecond, foundSecond, relatedSecond⟩ := evolves.step_after atSecond
  have begun := (advances second oldSecond b relatedSecond foundSecond).1 active
  exact (advances first oldFirst a relatedFirst foundFirst).2
    (inOrder follows foundFirst foundSecond begun)

end

/-! ### Passes -/

/-- What stands before a picked step is complete, and stays so because only steps with
something to start are offered to. -/
theorem InOrder.pass {σ : Type} {precedes : Location → Location → Prop}
    {plan after : Plan Step} {evaluate : Evaluator σ} {dirty : List String}
    (inOrder : InOrder precedes plan)
    (evolves : Evolves (fun location old new =>
      new = old ∨ location ∈ plan.candidateSteps dirty ∧ Step.Offered evaluate old new)
      plan after)
    (picked : ∀ ⦃first second a⦄, precedes first second →
      second ∈ plan.candidateSteps dirty → plan.stepAt? first = some a → a.status = .complete) :
    InOrder precedes after := by
  intro first second a b follows atFirst atSecond active
  obtain ⟨oldFirst, foundFirst, relatedFirst⟩ := evolves.step_after atFirst
  obtain ⟨oldSecond, foundSecond, relatedSecond⟩ := evolves.step_after atSecond
  -- a step under way was so before the pass, or the pass picked it
  have complete : oldFirst.status = .complete := by
    rcases relatedSecond with same | ⟨candidate, _⟩
    · subst same
      exact inOrder follows foundFirst foundSecond active
    · exact picked follows candidate foundFirst
  rcases relatedFirst with same | ⟨_, requirement, _, _, started, _, _⟩
  · rw [same]
    exact complete
  · exact False.elim ((Step.start_eq_some_iff.mp started).2.1 complete)

/-- Under a serial plan a phase is chosen when all steps before it are complete. -/
theorem phasesBefore_complete {plan : Plan Step} {first second : Location} {a : Step}
    (precedes : plan.PhasesBefore first second) (candidate : second ∈ plan.candidateSteps [])
    (found : plan.stepAt? first = some a) : a.status = .complete := by
  have chosen : second.phase ∈ plan.candidates [] := phase_of_mem_collect candidate
  obtain ⟨_, _, _, _, earlier⟩ := mem_candidates_iff.mp chosen
  obtain ⟨phase, inPlan, inPhase⟩ := stepAt?_eq_some_iff.mp found
  rcases earlier precedes.1 first.phase precedes.2 phase inPlan with complete | taken
  · exact Phase.isComplete_iff.mp complete a (List.mem_of_getElem? inPhase)
  · cases taken

/-- Distinct names keep a claim of one step from hiding another, so a serial phase
passes over complete steps only. -/
theorem stepsBefore_complete {plan : Plan Step} (distinct : (plan.steps.map (·.name)).Nodup)
    {first second : Location} {a : Step} (precedes : plan.StepsBefore first second)
    (candidate : second ∈ plan.candidateSteps []) (found : plan.stepAt? first = some a) :
    a.status = .complete := by
  obtain ⟨samePhase, before, phase, inPlan, serial⟩ := precedes
  have chosen : second.phase ∈ plan.candidates [] := phase_of_mem_collect candidate
  obtain ⟨names, named, picks⟩ := candidateSteps_at chosen (samePhase ▸ inPlan)
  obtain ⟨_, _, _, _, earlier⟩ :=
    Phase.mem_candidates_iff.mp ((picks second.step).mp candidate)
  have inPhase : phase.steps[first.step]? = some a := by
    rw [← stepAt?_of_phase inPlan]
    exact found
  rcases earlier serial first.step before a inPhase with complete | taken
  · exact Status.isComplete_iff.mp complete
  · obtain ⟨other, _, otherPhase, same⟩ := (named _).mp (List.nil_append names ▸ taken)
    obtain ⟨holder, atOther, name⟩ := Option.map_eq_some_iff.mp same
    have location := location_eq_of_key distinct atOther found name
    rw [location, samePhase] at otherPhase
    exact False.elim (Nat.lt_irrefl _ otherPhase)

end Plan

/-! ### Histories -/

namespace Operation

variable {σ : Type}

/-- Everything but an offer, a report or a restart made on a single step: passes in which
no name is taken elsewhere, routed reports, restarts of the plan, interruptions, and
parameters and completion by force for any step. -/
def Orderly : Operation σ → Prop
  | .pass _ dirty => dirty = []
  | .onStep _ action => action = .complete ∨ ∃ values, action = .parameters values
  | _ => True

theorem Orderly.action_cases {operation : Operation σ} (orderly : operation.Orderly)
    {location : Location} {action : Step.Action}
    (acts : operation.actionAt location = some action) :
    (∃ report, action = .report report) ∨ operation = .restart ∧ action = .restart ∨
      action = .complete ∨ ∃ values, action = .parameters values := by
  rcases actionAt_cases acts with ⟨report, _, reports⟩ | restarts | single
  · exact Or.inl ⟨report, reports⟩
  · exact Or.inr (Or.inl restarts)
  · rw [single] at orderly
    exact Or.inr (Or.inr orderly)

theorem Orderly.brokered {operation : Operation σ} (orderly : operation.Orderly) :
    operation.Brokered := by
  rintro location recommendations rfl
  rcases orderly with other | ⟨_, other⟩
  all_goals cases other

theorem Orderly.noRestart {operation : Operation σ} (orderly : operation.Orderly)
    (kept : operation ≠ .restart) {location : Location} {action : Step.Action}
    (acts : operation.actionAt location = some action) : action ≠ .restart := by
  intro restart
  subst restart
  rcases orderly.action_cases acts with ⟨_, other⟩ | ⟨whole, _⟩ | other | ⟨_, other⟩
  · cases other
  · exact kept whole
  · cases other
  · cases other

end Operation

namespace Session

variable {σ : Type}

theorem invalidUntouched_perform {session : Session σ} {operation : Operation σ}
    (orderly : operation.Orderly) (invalid : session.plan.InvalidUntouched) :
    (session.perform operation).plan.InvalidUntouched := by
  refine forall_steps_perform ?_ ?_ invalid
  · intro evaluate dirty _ old new _ offered faulty
    obtain ⟨requirement, _, recommendations, started, _, same⟩ := offered
    have valid : old.errors = [] := (Step.start_eq_some_iff.mp started).1
    rw [same] at faulty
    exact False.elim (faulty valid)
  · intro location action acts step untouched faulty
    rw [step.act_errors action] at faulty
    exact (untouched faulty).act faulty (orderly.brokered.noOffer acts)

theorem inOrder_perform {session : Session σ} {operation : Operation σ}
    (orderly : operation.Orderly) (invalid : session.plan.InvalidUntouched)
    {precedes : Location → Location → Prop} (inOrder : session.plan.InOrder precedes)
    (picked : ∀ ⦃first second a⦄, precedes first second →
      second ∈ session.plan.candidateSteps [] → session.plan.stepAt? first = some a →
      a.status = .complete) :
    (session.perform operation).plan.InOrder precedes := by
  rcases session.perform_cases operation with ⟨evaluate, dirty, same, evolves⟩ | evolves
  · subst same
    have clean : dirty = [] := orderly
    subst clean
    exact inOrder.pass evolves picked
  · by_cases restart : operation = .restart
    · subst restart
      intro first second a b _ _ atSecond active
      obtain ⟨old, _, related⟩ := evolves.step_after atSecond
      have untouched : b.Untouched := related ▸ old.untouched_restart
      exact False.elim (untouched.not_inProgress active)
    · refine inOrder.evolves evolves ?_
      intro location old new related found
      cases acts : operation.actionAt location with
      | none =>
          rw [acts] at related
          subst related
          exact ⟨id, id⟩
      | some action =>
          rw [acts] at related
          subst related
          exact Step.act_advances (invalid found) (orderly.brokered.noOffer acts)
            (orderly.noRestart restart acts)

theorem phasesInOrder_perform {session : Session σ} {operation : Operation σ}
    (orderly : operation.Orderly) (invalid : session.plan.InvalidUntouched)
    (inOrder : session.plan.InOrder session.plan.PhasesBefore) :
    (session.perform operation).plan.InOrder (session.perform operation).plan.PhasesBefore := by
  have kept := inOrder_perform orderly invalid inOrder
    (fun _ _ _ => Plan.phasesBefore_complete)
  intro first second a b precedes
  apply kept
  rcases session.perform_cases operation with ⟨_, _, _, evolves⟩ | evolves
  · exact evolves.phasesBefore_iff.mp precedes
  · exact evolves.phasesBefore_iff.mp precedes

theorem stepsInOrder_perform {session : Session σ} {operation : Operation σ}
    (distinct : (session.plan.steps.map (·.name)).Nodup)
    (orderly : operation.Orderly) (invalid : session.plan.InvalidUntouched)
    (inOrder : session.plan.InOrder session.plan.StepsBefore) :
    (session.perform operation).plan.InOrder (session.perform operation).plan.StepsBefore := by
  have kept := inOrder_perform orderly invalid inOrder
    (fun _ _ _ => Plan.stepsBefore_complete distinct)
  intro first second a b precedes
  apply kept
  rcases session.perform_cases operation with ⟨_, _, _, evolves⟩ | evolves
  · exact evolves.stepsBefore_of precedes
  · exact evolves.stepsBefore_of precedes

theorem phasesInOrder_run (session : Session σ) {operations : List (Operation σ)}
    (orderly : ∀ operation ∈ operations, operation.Orderly)
    (invalid : session.plan.InvalidUntouched)
    (inOrder : session.plan.InOrder session.plan.PhasesBefore) :
    (session.run operations).plan.InvalidUntouched ∧
      (session.run operations).plan.InOrder (session.run operations).plan.PhasesBefore := by
  refine run_induct (motive := fun current : Session σ =>
    current.plan.InvalidUntouched ∧ current.plan.InOrder current.plan.PhasesBefore)
    Operation.Orderly ?_ session ⟨invalid, inOrder⟩ orderly
  intro current operation permitted holds
  exact ⟨invalidUntouched_perform permitted holds.1,
    phasesInOrder_perform permitted holds.1 holds.2⟩

theorem stepsInOrder_run (session : Session σ) {operations : List (Operation σ)}
    (distinct : (session.plan.steps.map (·.name)).Nodup)
    (orderly : ∀ operation ∈ operations, operation.Orderly)
    (invalid : session.plan.InvalidUntouched)
    (inOrder : session.plan.InOrder session.plan.StepsBefore) :
    (session.run operations).plan.InOrder (session.run operations).plan.StepsBefore := by
  have kept := run_induct (motive := fun current : Session σ =>
    (current.plan.steps.map (·.name)).Nodup ∧ current.plan.InvalidUntouched ∧
      current.plan.InOrder current.plan.StepsBefore)
    Operation.Orderly (by
      intro current operation permitted holds
      obtain ⟨names, untouched, steps⟩ := holds
      refine ⟨?_, invalidUntouched_perform permitted untouched,
        stepsInOrder_perform names permitted untouched steps⟩
      rw [← Plan.map_name_steps_declared, declared_perform, Plan.map_name_steps_declared]
      exact names)
    session ⟨distinct, invalid, inOrder⟩ orderly
  exact kept.2.2

end Session

namespace Plan

theorem inOrder_of_declared {plan : Plan Step} (same : plan.declared = plan)
    (precedes : Location → Location → Prop) : plan.InOrder precedes := by
  intro first second a b _ _ atSecond active
  exact False.elim ((untouched_of_declared same atSecond).not_inProgress active)

theorem oneAtATime_steps {plan : Plan Step} (inOrder : plan.InOrder plan.StepsBefore)
    {phase : Phase Step} (member : phase ∈ plan.phases) (serial : phase.strategy.kind = .serial) :
    OneAtATime Step.InProgress (fun step => step.status = .complete) phase.steps := by
  obtain ⟨place, inPlan⟩ := List.mem_iff_getElem?.mp member
  apply OneAtATime.of_doneBefore
  · intro step _ active
    exact active.1
  · intro i j a b before atFirst atSecond active
    have precedes : plan.StepsBefore ⟨place, i⟩ ⟨place, j⟩ :=
      ⟨rfl, before, phase, inPlan, serial⟩
    apply inOrder precedes _ _ active
    · rw [stepAt?_of_phase inPlan, atFirst]
    · rw [stepAt?_of_phase inPlan, atSecond]

theorem oneAtATime_phases {plan : Plan Step} (inOrder : plan.InOrder plan.PhasesBefore)
    (serial : plan.strategy.kind = .serial) :
    OneAtATime Phase.InProgress Phase.Done plan.phases := by
  apply OneAtATime.of_doneBefore
  · intro phase _ active done
    obtain ⟨step, inside, unfinished⟩ := active
    exact unfinished.1 (done step inside)
  · intro i j earlier later before atFirst atSecond active step inside
    obtain ⟨busy, within, unfinished⟩ := active
    obtain ⟨first, atStep⟩ := exists_stepAt?_of_mem atFirst inside
    obtain ⟨second, atBusy⟩ := exists_stepAt?_of_mem atSecond within
    have precedes : plan.PhasesBefore ⟨i, first⟩ ⟨j, second⟩ := ⟨serial, before⟩
    exact inOrder precedes atStep atBusy unfinished

/-- In every state of every history, a serial phase has at most one step under way, with
everything before it complete, and so has a serial plan with its phases. -/
theorem serial_order_of_history {σ : Type} {file : ServiceFile} {plan : Plan Step}
    (built : ofService file = .ok plan) (distinct : (plan.steps.map (·.name)).Nodup)
    (evaluator : σ) {operations : List (Operation σ)}
    (orderly : ∀ operation ∈ operations, operation.Orderly) :
    let reached := (Session.run ⟨plan, evaluator⟩ operations).plan
    (∀ phase ∈ reached.phases, phase.strategy.kind = .serial →
      OneAtATime Step.InProgress (fun step => step.status = .complete) phase.steps) ∧
    (reached.strategy.kind = .serial →
      OneAtATime Phase.InProgress Phase.Done reached.phases) := by
  have declared := declared_built built
  have invalid : plan.InvalidUntouched := fun _ _ found _ => untouched_of_declared declared found
  have steps := Session.stepsInOrder_run ⟨plan, evaluator⟩ distinct orderly invalid
    (inOrder_of_declared declared _)
  have phases := Session.phasesInOrder_run ⟨plan, evaluator⟩ orderly invalid
    (inOrder_of_declared declared _)
  exact ⟨fun phase member serial => oneAtATime_steps steps member serial,
    fun serial => oneAtATime_phases phases.2 serial⟩

/-- Two instances in turn: the pass launches on the first, and its failure is reported. -/
theorem serial_order_of_scaffold :
    let file := ServiceFile.scaffold "search" "index" 2
    let plan := Plan.new deployName (file.pods.map PodSection.phase) file.planStrategy
    let failed := TaskReport.new (TaskId.compose "index-0-server" "1") .failed
    let reached := (Session.run ⟨plan, SlotPool.unbounded⟩
      [.pass (SlotPool.evaluate Nat.repr) [], .route failed, .interrupt]).plan
    (∀ phase ∈ reached.phases, phase.strategy.kind = .serial →
      OneAtATime Step.InProgress (fun step => step.status = .complete) phase.steps) ∧
    (reached.strategy.kind = .serial →
      OneAtATime Phase.InProgress Phase.Done reached.phases) := by
  intro file plan failed
  have built : ofService file = .ok plan := rfl
  have distinct : (plan.steps.map (·.name)).Nodup := by decide +kernel
  apply serial_order_of_history built distinct
  intro operation member
  simp only [List.mem_cons, List.not_mem_nil, or_false] at member
  rcases member with same | same | same
  · subst same
    exact rfl
  · subst same
    exact trivial
  · subst same
    exact trivial

end Plan

end Rollout
