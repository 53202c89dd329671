import Rollout.Proofs.Plan.Locations
import Rollout.Proofs.Step.Actions

/-! Plans before and after a change that keeps their outline: the same phases under the same
strategies, and at every location a step before and a step after that stand in a given relation.
What holds of a plan's declaration survives every such change in which the steps keep theirs. -/

namespace Rollout

def Phase.outline {α : Type} (phase : Phase α) : String × StrategyKind × List String :=
  (phase.name, phase.strategy.kind, phase.errors)

def Phase.declared (phase : Phase Step) : Phase Step :=
  (Phase.new phase.name (phase.steps.map Step.declared) phase.strategy.kind).withErrors
    phase.errors

namespace Plan

def outline {α : Type} (plan : Plan α) : String × StrategyKind × List String :=
  (plan.name, plan.strategy.kind, plan.errors)

/-- The plan as it was built: no step was touched and nothing is interrupted. -/
def declared (plan : Plan Step) : Plan Step :=
  (Plan.new plan.name (plan.phases.map Phase.declared) plan.strategy.kind).withErrors
    plan.errors

structure Evolves (R : Location → Step → Step → Prop) (before after : Plan Step) : Prop where
  outline : before.outline = after.outline
  phases : ∀ place : Nat, (before.phases[place]?).map Phase.outline =
    (after.phases[place]?).map Phase.outline
  steps : ∀ {location step}, before.stepAt? location = some step →
    ∃ new, after.stepAt? location = some new ∧ R location step new
  places : ∀ {location}, before.stepAt? location = none → after.stepAt? location = none

theorem outline_of_frame {before after : Option (Phase Step)}
    (same : before.map Phase.frame = after.map Phase.frame) :
    before.map Phase.outline = after.map Phase.outline := by
  have through : ∀ phase : Option (Phase Step), phase.map Phase.outline =
      (phase.map Phase.frame).map fun frame => (frame.1, frame.2.1.kind, frame.2.2) := by
    intro phase
    cases phase <;> rfl
  rw [through, same, ← through]

namespace Evolves

variable {R S T : Location → Step → Step → Prop} {plan before between after : Plan Step}

theorem step_after (evolves : Evolves R before after) {location : Location} {step : Step}
    (found : after.stepAt? location = some step) :
    ∃ old, before.stepAt? location = some old ∧ R location old step := by
  cases atBefore : before.stepAt? location with
  | none =>
      rw [evolves.places atBefore] at found
      cases found
  | some old =>
      obtain ⟨new, atAfter, holds⟩ := evolves.steps atBefore
      rw [atAfter] at found
      cases found
      exact ⟨old, rfl, holds⟩

theorem phase_after (evolves : Evolves R before after) {place : Nat} {phase : Phase Step}
    (found : after.phases[place]? = some phase) :
    ∃ old, before.phases[place]? = some old ∧ old.outline = phase.outline := by
  have outlines := evolves.phases place
  rw [found] at outlines
  cases atBefore : before.phases[place]? with
  | none =>
      rw [atBefore] at outlines
      cases outlines
  | some old =>
      rw [atBefore] at outlines
      exact ⟨old, rfl, Option.some.inj outlines⟩

theorem mono (evolves : Evolves R before after)
    (weaker : ∀ location old new, R location old new → S location old new) :
    Evolves S before after where
  outline := evolves.outline
  phases := evolves.phases
  steps := by
    intro location step found
    obtain ⟨new, atAfter, holds⟩ := evolves.steps found
    exact ⟨new, atAfter, weaker location step new holds⟩
  places := evolves.places

theorem attach (evolves : Evolves R before after) :
    Evolves (fun location old new =>
      before.stepAt? location = some old ∧ R location old new) before after where
  outline := evolves.outline
  phases := evolves.phases
  steps := by
    intro location step found
    obtain ⟨new, atAfter, holds⟩ := evolves.steps found
    exact ⟨new, atAfter, found, holds⟩
  places := evolves.places

theorem trans (first : Evolves R before between) (second : Evolves S between after)
    (composed : ∀ location old middle new,
      R location old middle → S location middle new → T location old new) :
    Evolves T before after where
  outline := first.outline.trans second.outline
  phases := fun place => (first.phases place).trans (second.phases place)
  steps := by
    intro location step found
    obtain ⟨middle, atBetween, early⟩ := first.steps found
    obtain ⟨new, atAfter, late⟩ := second.steps atBetween
    exact ⟨new, atAfter, composed location step middle new early late⟩
  places := fun absent => second.places (first.places absent)

theorem of_mapSteps (plan : Plan Step) (f : Step → Step) :
    Evolves (fun _ old new => new = f old) plan (plan.mapSteps f) where
  outline := rfl
  phases := fun place => outline_of_frame (frame_mapSteps plan f place).symm
  steps := by
    intro location step found
    exact ⟨f step, by rw [stepAt?_mapSteps, found]; rfl, rfl⟩
  places := by
    intro location absent
    rw [stepAt?_mapSteps, absent]
    rfl

theorem of_modifyAt (plan : Plan Step) (location : Location) (f : Step → Step) :
    Evolves (fun place old new => new = if place = location then f old else old) plan
      (plan.modifyAt location f) where
  outline := rfl
  phases := fun place => outline_of_frame (frame_modifyAt plan location f place).symm
  steps := by
    intro place step found
    by_cases here : place = location
    · subst here
      exact ⟨f step, by rw [stepAt?_modifyAt_self, found]; rfl, (if_pos rfl).symm⟩
    · exact ⟨step, by rw [stepAt?_modifyAt_of_ne plan f here, found], (if_neg here).symm⟩
  places := by
    intro place absent
    by_cases here : place = location
    · subst here
      rw [stepAt?_modifyAt_self, absent]
      rfl
    · rw [stepAt?_modifyAt_of_ne plan f here, absent]

theorem of_stepAt? {plan after : Plan Step} (outline : plan.outline = after.outline)
    (phases : ∀ place : Nat, (plan.phases[place]?).map Phase.outline =
      (after.phases[place]?).map Phase.outline)
    (same : ∀ location, after.stepAt? location = plan.stepAt? location) :
    Evolves (fun _ old new => new = old) plan after where
  outline := outline
  phases := phases
  steps := by
    intro location step found
    exact ⟨step, by rw [same, found], rfl⟩
  places := by
    intro location absent
    rw [same, absent]

end Evolves

/-! ### Declarations -/

theorem stepAt?_declared (plan : Plan Step) (location : Location) :
    plan.declared.stepAt? location = (plan.stepAt? location).map Step.declared := by
  unfold stepAt?
  change (do
    let phase ← (plan.phases.map Phase.declared)[location.phase]?
    phase.steps[location.step]?) = _
  rw [List.getElem?_map]
  cases plan.phases[location.phase]? with
  | none => rfl
  | some phase => exact List.getElem?_map

theorem Evolves.declared_eq {R : Location → Step → Step → Prop} {before after : Plan Step}
    (evolves : Evolves R before after)
    (keeps : ∀ location old new, R location old new → new.declared = old.declared) :
    after.declared = before.declared := by
  obtain ⟨name, kind, errors⟩ : before.name = after.name ∧
      before.strategy.kind = after.strategy.kind ∧ before.errors = after.errors := by
    have outline := evolves.outline
    simpa only [outline, Plan.outline, Prod.mk.injEq] using outline
  have frame : ∀ (plan : Plan Step) (place : Nat),
      (plan.declared.phases[place]?).map Phase.frame =
        ((plan.phases[place]?).map Phase.outline).map
          fun outline => (outline.1, .ofKind outline.2.1, outline.2.2) := by
    intro plan place
    change (((plan.phases.map Phase.declared)[place]?).map Phase.frame) = _
    rw [List.getElem?_map]
    cases plan.phases[place]? <;> rfl
  refine ext_stepAt? name.symm (congrArg Strategy.ofKind kind.symm) errors.symm ?_ ?_
  · intro place
    rw [frame, frame, evolves.phases place]
  · intro location
    rw [stepAt?_declared, stepAt?_declared]
    cases found : before.stepAt? location with
    | none =>
        cases late : after.stepAt? location with
        | none => rfl
        | some new =>
            obtain ⟨old, atBefore, _⟩ := evolves.step_after late
            rw [found] at atBefore
            cases atBefore
    | some old =>
        obtain ⟨new, atAfter, related⟩ := evolves.steps found
        rw [atAfter, Option.map_some, Option.map_some, keeps location old new related]

end Plan

end Rollout
