import Rollout.Proofs.CandidateSteps

/-! A pass, told by the outcomes of its evaluations.  The evaluator is asked once for each step
that the plan hands out before the pass, in order, and nothing that happens during the pass
changes what it is asked.  The report sorts the names of these steps by their outcomes; each step
takes its own outcome, and nothing else in the plan changes. -/

namespace Rollout

variable {σ : Type}

namespace Evaluator

/-- What is answered to requirements that are put one after the other, and the state of
the evaluator after the last one. -/
def answers (evaluate : Evaluator σ) (state : σ) : List Requirement → List Evaluation × σ
  | [] => ([], state)
  | requirement :: rest =>
      let (outcome, next) := evaluate requirement state
      let (outcomes, last) := answers evaluate next rest
      (outcome :: outcomes, last)

/-- The same evaluator, keeping a record of the requirements that were put to it. -/
def recorded (evaluate : Evaluator σ) : Evaluator (σ × List Requirement) :=
  fun requirement state =>
    let (outcome, next) := evaluate requirement state.1
    (outcome, next, state.2 ++ [requirement])

theorem length_answers (evaluate : Evaluator σ) (state : σ) (requirements : List Requirement) :
    (evaluate.answers state requirements).1.length = requirements.length := by
  induction requirements generalizing state with
  | nil => rfl
  | cons requirement rest ih => exact congrArg (· + 1) (ih _)

theorem answers_recorded (evaluate : Evaluator σ) (state : σ)
    (record requirements : List Requirement) :
    evaluate.recorded.answers (state, record) requirements =
      ((evaluate.answers state requirements).1, (evaluate.answers state requirements).2,
        record ++ requirements) := by
  induction requirements generalizing state record with
  | nil => simp only [answers, List.append_nil]
  | cons requirement rest ih =>
      simp only [answers, recorded, ih, List.append_assoc, List.singleton_append]

/-- An evaluator that stays in order while it answers answers well every time. -/
theorem forall_answers {evaluate : Evaluator σ} (InOrder : σ → Prop) (Good : Evaluation → Prop)
    {requirements : List Requirement}
    (answer : ∀ requirement ∈ requirements, ∀ state, InOrder state →
      Good (evaluate requirement state).1 ∧ InOrder (evaluate requirement state).2)
    {state : σ} (ready : InOrder state) :
    ∀ outcome ∈ (evaluate.answers state requirements).1, Good outcome := by
  induction requirements generalizing state with
  | nil => exact List.forall_mem_nil _
  | cons requirement rest ih =>
      obtain ⟨now, later⟩ := List.forall_mem_cons.mp answer
      obtain ⟨good, still⟩ := now state ready
      exact List.forall_mem_cons.mpr ⟨good, ih later still⟩

end Evaluator

namespace Evaluation

def launches : Evaluation → Bool
  | .ok recommendations => Recommendation.launchesAny recommendations
  | .error _ => false

end Evaluation

namespace PassReport

def ofOutcomes (entries : List (String × Evaluation)) : PassReport where
  evaluated := entries.map (·.1)
  launched := (entries.filter fun entry => Evaluation.launches entry.2).map (·.1)
  failed := (entries.filter fun entry => !entry.2.isOk).map (·.1)

def append (first second : PassReport) : PassReport where
  evaluated := first.evaluated ++ second.evaluated
  launched := first.launched ++ second.launched
  failed := first.failed ++ second.failed

theorem append_ofOutcomes_nil (report : PassReport) : report.append (ofOutcomes []) = report := by
  simp [append, ofOutcomes]

theorem append_ofOutcomes_cons (report : PassReport) (entry : String × Evaluation)
    (rest : List (String × Evaluation)) :
    report.append (ofOutcomes (entry :: rest)) =
      (report.append (ofOutcomes [entry])).append (ofOutcomes rest) := by
  simp only [append, ofOutcomes, List.map_cons, List.map_nil, List.filter_cons, List.filter_nil,
    List.append_assoc, mk.injEq]
  refine ⟨rfl, ?_, ?_⟩ <;> split <;> rfl

/-- All of these names were evaluated, in this order, some with a launch and some in vain. -/
structure Names (report : PassReport) (names : List String) : Prop where
  evaluated : report.evaluated = names
  launched : report.launched.Sublist names
  failed : report.failed.Sublist names

theorem names_ofOutcomes (entries : List (String × Evaluation)) :
    (ofOutcomes entries).Names (entries.map (·.1)) where
  evaluated := rfl
  launched := List.filter_sublist.map _
  failed := List.filter_sublist.map _

theorem ofOutcomes_of_launches {entries : List (String × Evaluation)}
    (launches : ∀ entry ∈ entries, Evaluation.launches entry.2 = true) :
    ofOutcomes entries = ⟨entries.map (·.1), entries.map (·.1), []⟩ := by
  have launched := List.filter_eq_self.mpr launches
  have failed : (entries.filter fun entry => !entry.2.isOk) = [] := by
    apply List.filter_eq_nil_iff.mpr
    rintro ⟨name, cause | recommendations⟩ member
    · cases launches _ member
    · exact Bool.false_ne_true
  rw [ofOutcomes, launched, failed, List.map_nil]

theorem empty_append (report : PassReport) : empty.append report = report := rfl

end PassReport

namespace Step

/-- What a step asks of an evaluator: its declared requirement, with its latest parameters
put over the environment. -/
def demand (step : Step) : Requirement :=
  step.requirement.withEnvironment step.parameters

def heed (outcome : Evaluation) (step : Step) : Step :=
  match outcome with
  | .ok recommendations => step.updateOffer recommendations
  | .error _ => step

end Step

namespace Plan

namespace Pass

variable {evaluate : Evaluator σ}

theorem record_eq (pass : Pass σ) (location : Location) (name : String)
    (outcome : Evaluation) :
    pass.record location name outcome =
      ⟨pass.plan.modifyAt location (Step.heed outcome), pass.evaluator,
        pass.report.append (.ofOutcomes [(name, outcome)])⟩ := by
  cases outcome with
  | error cause =>
      have still : pass.plan.modifyAt location (Step.heed (.error cause)) = pass.plan :=
        modifyAt_eq_self fun _ _ => rfl
      simp [record, still, PassReport.append, PassReport.ofOutcomes, Evaluation.launches,
        Except.isOk, Except.toBool]
  | ok recommendations =>
      have told : Step.heed (.ok recommendations) = (·.updateOffer recommendations) := rfl
      cases launches : Recommendation.launchesAny recommendations <;>
        simp [record, told, launches, PassReport.append, PassReport.ofOutcomes,
          Evaluation.launches, Except.isOk, Except.toBool]

/-- A visit to a step with a requirement asks for one outcome, and hands it on. -/
theorem visit_eq {pass : Pass σ} {location : Location} {step : Step}
    (found : pass.plan.stepAt? location = some step) (started : step.start = some step.demand) :
    pass.visit evaluate location =
      ⟨pass.plan.modifyAt location (Step.heed (evaluate step.demand pass.evaluator).1),
        (evaluate step.demand pass.evaluator).2,
        pass.report.append (.ofOutcomes
          [(step.name, (evaluate step.demand pass.evaluator).1)])⟩ := by
  simp only [visit, found, started]
  exact record_eq _ location step.name _

end Pass

def stepsAt (plan : Plan Step) (locations : List Location) : List Step :=
  locations.filterMap plan.stepAt?

theorem stepsAt_cons {plan : Plan Step} {location : Location} {step : Step}
    (found : plan.stepAt? location = some step) (rest : List Location) :
    plan.stepsAt (location :: rest) = step :: plan.stepsAt rest := by
  rw [stepsAt, List.filterMap_cons, found]
  rfl

namespace Pass

def outcomes (pass : Pass σ) (evaluate : Evaluator σ) (locations : List Location) :
    List Evaluation :=
  (evaluate.answers pass.evaluator ((pass.plan.stepsAt locations).map Step.demand)).1

/-- A pass before and after visits to locations, each of which yields one outcome. -/
structure Visited (evaluate : Evaluator σ) (locations : List Location)
    (before after : Pass σ) : Prop where
  evaluator : after.evaluator =
    (evaluate.answers before.evaluator ((before.plan.stepsAt locations).map Step.demand)).2
  report : after.report = before.report.append (.ofOutcomes
    (((before.plan.stepsAt locations).map (·.name)).zip (before.outcomes evaluate locations)))
  steps : ∀ location, after.plan.stepAt? location = (before.plan.stepAt? location).map fun step =>
    (((locations.zip (before.outcomes evaluate locations)).lookup location).map step.heed).getD step
  outer : (after.plan.name, after.plan.strategy, after.plan.errors) =
    (before.plan.name, before.plan.strategy, before.plan.errors)
  frames : ∀ place : Nat, (after.plan.phases[place]?).map Phase.frame =
    (before.plan.phases[place]?).map Phase.frame

theorem visited_nil (pass : Pass σ) : Visited evaluate [] pass pass where
  evaluator := rfl
  report := (PassReport.append_ofOutcomes_nil pass.report).symm
  steps := fun location => by simp
  outer := rfl
  frames := fun _ => rfl

theorem lookup_zip_of_notMem {locations : List Location} {location : Location}
    (absent : location ∉ locations) (outcomes : List Evaluation) :
    (locations.zip outcomes).lookup location = none := by
  apply List.lookup_eq_none_iff.mpr
  intro entry member
  apply bne_iff_ne.mpr
  intro same
  exact absent (same ▸ (List.of_mem_zip member).1)

/-- A visit changes no step that is visited later, so later steps are asked for what they
would have asked before it. -/
theorem Visited.cons {location : Location} {rest : List Location} {before after : Pass σ}
    (absent : location ∉ rest) {step : Step} (found : before.plan.stepAt? location = some step)
    (started : step.start = some step.demand)
    (later : Visited evaluate rest (before.visit evaluate location) after) :
    Visited evaluate (location :: rest) before after := by
  rw [visit_eq found started] at later
  have same : ∀ outcome, (before.plan.modifyAt location (Step.heed outcome)).stepsAt rest =
      before.plan.stepsAt rest := by
    intro outcome
    apply List.filterMap_congr
    intro other inRest
    exact stepAt?_modifyAt_of_ne _ _ fun equal => absent (equal ▸ inRest)
  have met := stepsAt_cons found rest
  obtain ⟨evaluator, report, steps, outer, frames⟩ := later
  simp only [outcomes, same] at evaluator report steps
  refine ⟨?_, ?_, ?_, outer, fun place => (frames place).trans (frame_modifyAt _ _ _ place)⟩
  · rw [evaluator, met]
    rfl
  · rw [report, outcomes, met, ← PassReport.append_ofOutcomes_cons]
    rfl
  · intro other
    rw [steps, outcomes, met, List.map_cons, Evaluator.answers, List.zip_cons_cons,
      List.lookup_cons]
    by_cases here : other = location
    · subst here
      rw [stepAt?_modifyAt_self, found, lookup_zip_of_notMem absent, beq_self_eq_true]
      rfl
    · rw [stepAt?_modifyAt_of_ne _ _ here, beq_false_of_ne here]

theorem visited_foldl {locations : List Location} (distinct : locations.Nodup) (pass : Pass σ)
    (startable : ∀ location ∈ locations, ∃ step, pass.plan.stepAt? location = some step ∧
      step.start = some step.demand) :
    Visited evaluate locations pass (locations.foldl (visit evaluate) pass) := by
  induction locations generalizing pass with
  | nil => exact visited_nil pass
  | cons location rest ih =>
      obtain ⟨absent, others⟩ := List.nodup_cons.mp distinct
      obtain ⟨⟨step, found, started⟩, later⟩ := List.forall_mem_cons.mp startable
      refine Visited.cons absent found started (ih others _ ?_)
      intro other inRest
      have different : other ≠ location := fun equal => absent (equal ▸ inRest)
      rw [visit_eq found started, stepAt?_modifyAt_of_ne _ _ different]
      exact later other inRest

end Pass

theorem startable_of_candidate {plan : Plan Step} {dirty : List String} {location : Location}
    (member : location ∈ plan.candidateSteps dirty) :
    ∃ step, plan.stepAt? location = some step ∧ step.start = some step.demand := by
  obtain ⟨step, found, valid, unfinished⟩ := open_of_mem_candidateSteps member
  exact ⟨step, found, Step.start_eq_some_iff.mpr ⟨valid, unfinished, rfl⟩⟩

theorem visited_runPass (plan : Plan Step) (evaluate : Evaluator σ) (evaluator : σ)
    (dirty : List String) :
    Pass.Visited evaluate (plan.candidateSteps dirty) ⟨plan, evaluator, .empty⟩
      (plan.runPass evaluate evaluator dirty) :=
  Pass.visited_foldl (plan.candidateSteps_nodup dirty) ⟨plan, evaluator, .empty⟩
    fun _ => startable_of_candidate

/-- The steps that a pass evaluates, as they stand before it, each with its outcome. -/
def verdicts (plan : Plan Step) (evaluate : Evaluator σ) (state : σ) (dirty : List String) :
    List (Step × Evaluation) :=
  (plan.handedOut dirty).zip
    (evaluate.answers state ((plan.handedOut dirty).map Step.demand)).1

theorem map_fst_verdicts (plan : Plan Step) (evaluate : Evaluator σ) (state : σ)
    (dirty : List String) :
    (plan.verdicts evaluate state dirty).map (·.1) = plan.handedOut dirty := by
  apply List.map_fst_zip
  rw [Evaluator.length_answers, List.length_map]

theorem map_name_verdicts (plan : Plan Step) (evaluate : Evaluator σ) (state : σ)
    (dirty : List String) :
    (plan.verdicts evaluate state dirty).map (·.1.name) =
      (plan.handedOut dirty).map (·.name) := by
  rw [← plan.map_fst_verdicts evaluate state dirty, List.map_map]
  rfl

theorem report_runPass (plan : Plan Step) (evaluate : Evaluator σ) (state : σ)
    (dirty : List String) :
    (plan.runPass evaluate state dirty).report = .ofOutcomes
      ((plan.verdicts evaluate state dirty).map fun verdict => (verdict.1.name, verdict.2)) := by
  rw [(plan.visited_runPass evaluate state dirty).report, PassReport.empty_append, verdicts,
    Pass.outcomes, List.zip_map_left]
  rfl

/-- A pass names the steps that are handed out, in order, and no other step. -/
theorem runPass_names (plan : Plan Step) (evaluate : Evaluator σ) (evaluator : σ)
    (dirty : List String) :
    (plan.runPass evaluate evaluator dirty).report.Names
      ((plan.handedOut dirty).map (·.name)) := by
  have names := PassReport.names_ofOutcomes ((plan.verdicts evaluate evaluator dirty).map
    fun verdict => (verdict.1.name, verdict.2))
  rw [List.map_map] at names
  rw [report_runPass, ← plan.map_name_verdicts evaluate evaluator dirty]
  exact names

/-- A record of the requirements changes nothing in a pass, and shows one requirement for
each step that is handed out. -/
theorem runPass_recorded (plan : Plan Step) (evaluate : Evaluator σ) (state : σ)
    (dirty : List String) :
    let pass := plan.runPass evaluate state dirty
    plan.runPass evaluate.recorded (state, []) dirty =
      ⟨pass.plan, (pass.evaluator, (plan.handedOut dirty).map Step.demand), pass.report⟩ := by
  intro pass
  have plain : Pass.Visited evaluate (plan.candidateSteps dirty) _ pass :=
    plan.visited_runPass evaluate state dirty
  have recorded := plan.visited_runPass evaluate.recorded (state, []) dirty
  have outcomes : Pass.outcomes ⟨plan, (state, []), .empty⟩ evaluate.recorded
      (plan.candidateSteps dirty) =
        Pass.outcomes ⟨plan, state, .empty⟩ evaluate (plan.candidateSteps dirty) := by
    rw [Pass.outcomes, Evaluator.answers_recorded]
    rfl
  obtain ⟨evaluator, report, steps, outer, frames⟩ := recorded
  rw [Evaluator.answers_recorded] at evaluator
  rw [outcomes] at report
  simp only [outcomes] at steps
  have same := outer.trans plain.outer.symm
  simp only [Prod.mk.injEq] at same
  have plans := ext_stepAt? same.1 same.2.1 same.2.2
    (fun place => (frames place).trans (plain.frames place).symm)
    (fun location => (steps location).trans (plain.steps location).symm)
  generalize plan.runPass evaluate.recorded (state, []) dirty = last at *
  obtain ⟨lastPlan, lastEvaluator, lastReport⟩ := last
  subst plans evaluator report
  rw [plain.evaluator, plain.report]
  rfl

theorem getElem?_stepsAt {plan : Plan Step} {locations : List Location}
    (found : ∀ location ∈ locations, ∃ step, plan.stepAt? location = some step) (index : Nat) :
    (plan.stepsAt locations)[index]? = (locations[index]?).bind plan.stepAt? := by
  induction locations generalizing index with
  | nil => rfl
  | cons location rest ih =>
      obtain ⟨⟨step, here⟩, later⟩ := List.forall_mem_cons.mp found
      rw [stepsAt_cons here]
      cases index with
      | zero => exact here.symm
      | succ index => exact ih later index

structure Accounts (plan : Plan Step) (evaluate : Evaluator σ) (state : σ)
    (dirty : List String) (pass : Pass σ) : Prop where
  /-- The evaluator was asked for each step that was handed out, once and in this order, and
  for nothing else; each of these steps had its requirement to start. -/
  calls : plan.runPass evaluate.recorded (state, []) dirty =
    ⟨pass.plan, (pass.evaluator, (plan.handedOut dirty).map Step.demand), pass.report⟩
  started : ∀ step ∈ plan.handedOut dirty, step.start = some step.demand
  answered : (plan.verdicts evaluate state dirty).map (·.1) = plan.handedOut dirty
  evaluator : pass.evaluator =
    (evaluate.answers state ((plan.handedOut dirty).map Step.demand)).2
  evaluated : pass.report.evaluated = (plan.handedOut dirty).map (·.name)
  failed : pass.report.failed = ((plan.verdicts evaluate state dirty).filter
    fun verdict => !verdict.2.isOk).map (·.1.name)
  launched : pass.report.launched = ((plan.verdicts evaluate state dirty).filter
    fun verdict => Evaluation.launches verdict.2).map (·.1.name)
  launchedOfOk : pass.report.launched.Sublist (((plan.verdicts evaluate state dirty).filter
    fun verdict => verdict.2.isOk).map (·.1.name))
  /-- Each step that was handed out has taken its own outcome, and no other. -/
  heeded : ∀ (index : Nat) (location : Location),
    (plan.candidateSteps dirty)[index]? = some location → ∃ step outcome,
      plan.stepAt? location = some step ∧
      (plan.verdicts evaluate state dirty)[index]? = some (step, outcome) ∧
      pass.plan.stepAt? location = some (step.heed outcome)
  untouched : ∀ location ∉ plan.candidateSteps dirty,
    pass.plan.stepAt? location = plan.stepAt? location
  /-- Names, strategies with their interruptions, and errors stay. -/
  outer : (pass.plan.name, pass.plan.strategy, pass.plan.errors) =
    (plan.name, plan.strategy, plan.errors)
  frames : ∀ place : Nat, (pass.plan.phases[place]?).map Phase.frame =
    (plan.phases[place]?).map Phase.frame

theorem Pass.lookup_zip_of_getElem? {locations : List Location} (distinct : locations.Nodup)
    {outcomes : List Evaluation} {index : Nat} {location : Location} {outcome : Evaluation}
    (place : locations[index]? = some location) (answer : outcomes[index]? = some outcome) :
    (locations.zip outcomes).lookup location = some outcome := by
  induction locations generalizing outcomes index with
  | nil => cases place
  | cons first rest ih =>
      obtain ⟨absent, others⟩ := List.nodup_cons.mp distinct
      cases outcomes with
      | nil => cases answer
      | cons head tail =>
          cases index with
          | zero =>
              cases place
              cases answer
              simp
          | succ index =>
              have different : location ≠ first := by
                intro same
                subst same
                exact absent (List.mem_of_getElem? place)
              rw [List.zip_cons_cons, List.lookup_cons, beq_false_of_ne different]
              exact ih others place answer

theorem exists_verdict (plan : Plan Step) (evaluate : Evaluator σ) (state : σ)
    (dirty : List String) {index : Nat} {location : Location}
    (place : (plan.candidateSteps dirty)[index]? = some location) :
    ∃ step outcome, plan.stepAt? location = some step ∧
      (plan.verdicts evaluate state dirty)[index]? = some (step, outcome) ∧
      (plan.runPass evaluate state dirty).plan.stepAt? location = some (step.heed outcome) := by
  have visited := plan.visited_runPass evaluate state dirty
  obtain ⟨step, found, _⟩ := startable_of_candidate (List.mem_of_getElem? place)
  have handed : (plan.handedOut dirty)[index]? = some step := by
    refine (getElem?_stepsAt (fun other member => ?_) index).trans ?_
    · exact (startable_of_candidate member).imp fun _ both => both.1
    · rw [place, Option.bind_some, found]
  rw [← plan.map_fst_verdicts evaluate state dirty, List.getElem?_map] at handed
  obtain ⟨⟨_, outcome⟩, verdict, rfl⟩ := Option.map_eq_some_iff.mp handed
  have answer := (List.getElem?_zip_eq_some.mp verdict).2
  refine ⟨_, outcome, found, verdict, ?_⟩
  rw [visited.steps, found, Option.map_some]
  exact congrArg (fun seen => some ((Option.map _ seen).getD _))
    (Pass.lookup_zip_of_getElem? (plan.candidateSteps_nodup dirty) place answer)

/-- For every plan, evaluator and set of dirty names, a pass asks once for each step that is
handed out, and each of these steps takes its own outcome.  The dirty names are only read. -/
theorem accounts_of_runPass (plan : Plan Step) (evaluate : Evaluator σ) (state : σ)
    (dirty : List String) :
    Accounts plan evaluate state dirty (plan.runPass evaluate state dirty) := by
  have visited := plan.visited_runPass evaluate state dirty
  have report := plan.report_runPass evaluate state dirty
  have named : ∀ keep : Evaluation → Bool,
      ((((plan.verdicts evaluate state dirty).map fun verdict => (verdict.1.name, verdict.2)).filter
        fun entry => keep entry.2).map (·.1)) =
      ((plan.verdicts evaluate state dirty).filter fun verdict => keep verdict.2).map
        (·.1.name) := by
    intro keep
    rw [List.filter_map, List.map_map]
    rfl
  have launched : (plan.runPass evaluate state dirty).report.launched =
      ((plan.verdicts evaluate state dirty).filter
        fun verdict => Evaluation.launches verdict.2).map (·.1.name) := by
    rw [report]
    exact named Evaluation.launches
  refine {
    calls := plan.runPass_recorded evaluate state dirty
    answered := plan.map_fst_verdicts evaluate state dirty
    evaluator := visited.evaluator
    launched := launched
    heeded := fun index location place => plan.exists_verdict evaluate state dirty place
    outer := visited.outer
    frames := visited.frames
    started := ?_, evaluated := ?_, failed := ?_, launchedOfOk := ?_, untouched := ?_ }
  · intro step member
    obtain ⟨location, candidate, found⟩ := List.mem_filterMap.mp member
    obtain ⟨other, same, started⟩ := startable_of_candidate candidate
    rw [found] at same
    cases same
    exact started
  · rw [report, PassReport.ofOutcomes, List.map_map]
    exact plan.map_name_verdicts evaluate state dirty
  · rw [report]
    exact named fun outcome => !outcome.isOk
  · rw [launched]
    apply List.Sublist.map
    apply List.monotone_filter_right
    rintro ⟨_, cause | recommendations⟩
    · exact fun launches => launches
    · exact fun _ => rfl
  · intro location absent
    rw [visited.steps, Pass.lookup_zip_of_notMem absent]
    cases plan.stepAt? location <;> rfl

end Plan

end Rollout
