import Rollout.Proofs.Plan.Passes
import Rollout.Proofs.Step.Coherence

/-! A step between the start of an evaluation and its outcome.  A start hands out the requirement
and leaves the step open to reports; the outcome is applied to the step as it is by then, without
a second look at its status.  So an outcome under way can undo a completion.  Nothing else can but
a restart: a complete step hands out no requirement, and takes no report. -/

namespace Rollout

/-- A step and the evaluations of its requirement that are under way, each named by the
number of the start that it answers. -/
structure Negotiation where
  step : Step
  issued : Nat
  waiting : List Nat
  deriving DecidableEq, Repr

namespace Negotiation

/-- The evaluation of a start ends with an outcome or is refused; in between, anything
else can be done to the step. -/
inductive Move where
  | start
  | outcome (number : Nat) (recommendations : List Recommendation)
  | refusal (number : Nat)
  | act (action : Step.Action)

def ofStep (step : Step) : Negotiation :=
  ⟨step, 0, []⟩

/-- The next state, if the move can be made: each start is answered at most once, and
offers are only taken as answers. -/
def next? (negotiation : Negotiation) : Move → Option Negotiation
  | .start =>
      if negotiation.step.start.isSome then
        some { negotiation with
          issued := negotiation.issued + 1
          waiting := negotiation.issued :: negotiation.waiting }
      else some negotiation
  | .outcome number recommendations =>
      if number ∈ negotiation.waiting then
        some { negotiation with
          step := negotiation.step.updateOffer recommendations
          waiting := negotiation.waiting.erase number }
      else none
  | .refusal number =>
      if number ∈ negotiation.waiting then
        some { negotiation with waiting := negotiation.waiting.erase number }
      else none
  | .act (.offer _) => none
  | .act action => some { negotiation with step := negotiation.step.act action }

def run? (negotiation : Negotiation) (moves : List Move) : Option Negotiation :=
  moves.foldlM next? negotiation

variable {before after : Negotiation} {move : Move}

inductive Made (before : Negotiation) : Move → Negotiation → Prop
  | closed (idle : before.step.start = none) : Made before .start before
  | handed {requirement : Requirement} (started : before.step.start = some requirement) :
      Made before .start { before with
        issued := before.issued + 1
        waiting := before.issued :: before.waiting }
  | answered {number : Nat} {recommendations : List Recommendation}
      (asked : number ∈ before.waiting) :
      Made before (.outcome number recommendations) { before with
        step := before.step.updateOffer recommendations
        waiting := before.waiting.erase number }
  | refused {number : Nat} (asked : number ∈ before.waiting) :
      Made before (.refusal number) { before with waiting := before.waiting.erase number }
  | acted {action : Step.Action} (noOffer : ∀ recommendations, action ≠ .offer recommendations) :
      Made before (.act action) { before with step := before.step.act action }

theorem made_of_next? (moved : before.next? move = some after) : Made before move after := by
  cases move with
  | start =>
      simp only [next?] at moved
      split at moved
      · rename_i handed
        obtain ⟨requirement, started⟩ := Option.isSome_iff_exists.mp handed
        cases moved
        exact .handed started
      · rename_i kept
        cases moved
        exact .closed (Option.not_isSome_iff_eq_none.mp kept)
  | outcome number recommendations =>
      simp only [next?] at moved
      split at moved
      · cases moved
        exact .answered ‹_›
      · cases moved
  | refusal number =>
      simp only [next?] at moved
      split at moved
      · cases moved
        exact .refused ‹_›
      · cases moved
  | act action =>
      cases action with
      | offer recommendations => cases moved
      | _ =>
          cases moved
          exact .acted (by intros; simp)

theorem run?_induct {motive : Negotiation → Prop} (permitted : Move → Prop)
    (keeps : ∀ before move after, permitted move → before.next? move = some after →
      motive before → motive after)
    {start final : Negotiation} {moves : List Move} (holds : motive start)
    (allowed : ∀ move ∈ moves, permitted move) (reached : start.run? moves = some final) :
    motive final := by
  induction moves generalizing start with
  | nil => exact Option.some.inj reached ▸ holds
  | cons move rest ih =>
      obtain ⟨first, later⟩ := List.forall_mem_cons.mp allowed
      rw [run?, List.foldlM_cons] at reached
      obtain ⟨next, moved, continued⟩ := Option.bind_eq_some_iff.mp reached
      exact ih (keeps start move next first moved holds) later continued

/-- A visit of a pass is a start and, if it hands out a requirement, its answer, with
nothing in between. -/
theorem run?_visit {σ : Type} (evaluate : Evaluator σ) (state : σ) (negotiation : Negotiation) :
    ∃ answer final, negotiation.run? (.start :: answer) = some final ∧ answer.length ≤ 1 ∧
      final.step = negotiation.step.consider evaluate state ∧
      final.waiting = negotiation.waiting := by
  cases started : negotiation.step.start with
  | none =>
      refine ⟨[], negotiation, ?_, Nat.zero_le 1, ?_, rfl⟩
      · simp [run?, next?, started]
      · simp only [Step.consider, started]
  | some requirement =>
      cases answer : (evaluate requirement state).1 with
      | error cause =>
          refine ⟨[.refusal negotiation.issued],
            { negotiation with issued := negotiation.issued + 1 }, ?_, Nat.le_refl 1, ?_, rfl⟩
          · simp [run?, next?, started]
          · simp only [Step.consider, started, answer]
      | ok recommendations =>
          refine ⟨[.outcome negotiation.issued recommendations],
            { negotiation with
              step := negotiation.step.updateOffer recommendations
              issued := negotiation.issued + 1 }, ?_, Nat.le_refl 1, ?_, rfl⟩
          · simp [run?, next?, started]
          · exact (Step.consider_of_ok started answer).symm

theorem Made.coherent (made : Made before move after) (coherent : before.step.Coherent) :
    after.step.Coherent := by
  cases made with
  | closed _ => exact coherent
  | handed _ => exact coherent
  | answered _ => exact coherent.updateOffer _
  | refused _ => exact coherent
  | acted _ => exact coherent.act _

/-! ### After completion -/

/-- A negotiation since its step was completed: no requirement was handed out and no task
has changed. -/
structure Standing (completed current : Negotiation) : Prop where
  coherent : current.step.Coherent
  complete : current.step.status = .complete
  tasks : current.step.tasks = completed.step.tasks
  issued : current.issued = completed.issued
  waiting : current.waiting ⊆ completed.waiting

theorem Standing.made {completed : Negotiation} (standing : Standing completed before)
    (made : Made before move after) (noRestart : move ≠ .act .restart)
    (unasked : ∀ number ∈ completed.waiting, ∀ recommendations,
      move ≠ .outcome number recommendations) : Standing completed after := by
  have coherent := made.coherent standing.coherent
  cases made with
  | closed _ => exact standing
  | handed started =>
      exact False.elim ((Step.start_eq_some_iff.mp started).2.1 standing.complete)
  -- what is still under way was so at completion, and its outcome was excluded
  | answered asked => exact False.elim (unasked _ (standing.waiting asked) _ rfl)
  | refused _ =>
      refine ⟨coherent, standing.complete, standing.tasks, standing.issued, ?_⟩
      exact List.Subset.trans List.erase_subset standing.waiting
  | acted noOffer =>
      obtain ⟨complete, tasks⟩ := standing.coherent.act_of_complete standing.complete noOffer
        fun restart => noRestart (congrArg Move.act restart)
      exact ⟨coherent, complete, tasks.trans standing.tasks, standing.issued, standing.waiting⟩

/-- A step that has become complete stays so, with its tasks as they were and without
handing out its requirement, until it is restarted or takes an outcome that was under way
when it became complete. -/
theorem completion_stands (name : String) (status : Status) (requirement : Requirement)
    {early late : List Move} {completed final : Negotiation}
    (reached : (ofStep (.new name status requirement [])).run? early = some completed)
    (complete : completed.step.status = .complete)
    (continued : completed.run? late = some final) (noRestart : .act .restart ∉ late)
    (noOutcome : ∀ number ∈ completed.waiting, ∀ recommendations,
      .outcome number recommendations ∉ late) :
    final.step.status = .complete ∧ final.step.tasks = completed.step.tasks ∧
      final.issued = completed.issued := by
  have coherent : completed.step.Coherent :=
    run?_induct (motive := fun current => current.step.Coherent) (fun _ => True)
      (fun _ _ _ _ moved holds => (made_of_next? moved).coherent holds)
      (Step.coherent_new name status requirement) (fun _ _ => trivial) reached
  have standing : Standing completed final := by
    refine run?_induct (motive := Standing completed) (· ∈ late) ?_
      ⟨coherent, complete, rfl, rfl, List.Subset.refl _⟩ (fun _ member => member) continued
    intro before move after inLate moved holds
    refine holds.made (made_of_next? moved) (fun restart => noRestart (restart ▸ inLate)) ?_
    intro number asked recommendations outcome
    exact noOutcome number asked recommendations (outcome ▸ inLate)
  exact ⟨standing.complete, standing.tasks, standing.issued⟩

/-- A server that failed is reported to run while its next launch is being evaluated.  The
launch is refused, and the lost contact, a start and force find the step complete. -/
theorem refused_launch_keeps_completion :
    let requirement := Requirement.ofInstance ⟨"index", 0, [⟨"server", .running, none⟩]⟩
    let server : TaskDescriptor := ⟨"index-0-server", "index-0-server__1", .running, none⟩
    let asked := ofStep (.new "index-0:[server]" .pending requirement [])
    let early : List Move := [.start, .outcome 0 [.launch server],
      .act (.report (.new "index-0-server__1" .failed)), .start,
      .act (.report (.new "index-0-server__1" .running))]
    let late : List Move := [.act (.report (.new "index-0-server__1" .lost)), .refusal 1,
      .start, .act .complete]
    ∃ completed final, asked.run? early = some completed ∧ completed.waiting = [1] ∧
      completed.run? late = some final ∧ final.step.status = .complete ∧
      final.step.tasks = completed.step.tasks ∧ final.issued = completed.issued := by
  intro requirement server asked early late
  have stands : (asked.run? early).map (fun reached => (reached.step.status, reached.waiting)) =
      some (.complete, [1]) := by decide +kernel
  have possible : ((asked.run? early).bind (·.run? late)).isSome = true := by decide +kernel
  obtain ⟨completed, reached, shown⟩ := Option.map_eq_some_iff.mp stands
  obtain ⟨complete, waiting⟩ := Prod.mk.inj shown
  rw [reached, Option.bind_some] at possible
  obtain ⟨final, continued⟩ := Option.isSome_iff_exists.mp possible
  refine ⟨completed, final, reached, waiting, continued, ?_⟩
  apply completion_stands _ _ _ reached complete continued
  · simp [late]
  · intro number _ recommendations
    simp [late]

/-- A completion can be undone without a restart: the server is reported to run while its
next launch is being evaluated, and the evaluation finds no offer. -/
theorem completion_undone_by_outcome :
    ¬ ∀ (name : String) (status : Status) (requirement : Requirement) (early late : List Move)
        (completed final : Negotiation),
      (ofStep (.new name status requirement [])).run? early = some completed →
      completed.step.status = .complete → completed.run? late = some final →
      .act .restart ∉ late →
      final.step.status = .complete ∧ final.step.tasks = completed.step.tasks := by
  intro stays
  let requirement := Requirement.ofInstance ⟨"index", 0, [⟨"server", .running, none⟩]⟩
  let server : TaskDescriptor := ⟨"index-0-server", "index-0-server__1", .running, none⟩
  let asked := ofStep (.new "index-0:[server]" .pending requirement [])
  let early : List Move := [.start, .outcome 0 [.launch server],
    .act (.report (.new "index-0-server__1" .failed)), .start,
    .act (.report (.new "index-0-server__1" .running))]
  have stands : (asked.run? early).map (·.step.status) = some .complete := by decide +kernel
  have undone : ((asked.run? early).bind (·.run? [.outcome 1 []])).map (·.step.status) =
      some .prepared := by decide +kernel
  obtain ⟨completed, reached, complete⟩ := Option.map_eq_some_iff.mp stands
  rw [reached, Option.bind_some] at undone
  obtain ⟨final, continued, prepared⟩ := Option.map_eq_some_iff.mp undone
  have still := (stays _ _ _ early [.outcome 1 []] completed final reached complete continued
    (by simp)).1
  rw [prepared] at still
  cases still

end Negotiation

end Rollout
