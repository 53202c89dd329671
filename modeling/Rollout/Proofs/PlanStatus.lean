import Rollout.Proofs.Plan.Locations
import Rollout.Proofs.Statuses

/-! The status of a plan, told by its steps.  A plan aggregates its phases and a phase its steps;
the two levels come to one, because an empty phase counts as complete and so adds nothing.  How
the steps are grouped, ordered or repeated is not seen in the result. -/

namespace Rollout

variable {α : Type} [Element α]

/-- Nothing is aggregated where there are no parts; where there are some, the previous status
has no say. -/
theorem Element.statusOfParts_decided (parts : List α) :
    (parts = [] → statusOfParts parts = .complete) ∧
      (parts ≠ [] → ∀ previous,
        Status.aggregate (parts.map status) previous = statusOfParts parts) := by
  constructor
  · intro none
    subst none
    rfl
  · intro occupied previous
    have nonempty : parts.map status ≠ [] := by simpa using occupied
    calc Status.aggregate (parts.map status) previous
        = Status.aggregate (parts.map status) .pending :=
          Status.aggregate_previous nonempty previous .pending
      _ = statusOfParts parts := (Status.ofParts_eq_aggregate nonempty).symm

namespace Plan

variable {plan : Plan α}

/-- The two levels of aggregation come to one. -/
theorem status_eq_ofParts (plan : Plan α) :
    plan.status = Status.ofParts (plan.steps.map Element.status) := by
  have phases : plan.phases.map Element.status =
      (plan.phases.map fun phase => phase.steps.map Element.status).map Status.ofParts := by
    rw [List.map_map]
    rfl
  calc plan.status
      = Status.ofParts (plan.phases.map Element.status) := rfl
    _ = Status.ofParts (plan.phases.map fun phase => phase.steps.map Element.status).flatten := by
        rw [phases, Status.ofParts_map_ofParts]
    _ = Status.ofParts (plan.steps.map Element.status) := by
        rw [steps, List.map_flatMap, List.flatMap_def]

theorem le_status_iff {status : Status} :
    status ≤ plan.status ↔ ∀ step ∈ plan.steps, status ≤ Element.status step := by
  rw [status_eq_ofParts, Status.le_ofParts_iff, List.forall_mem_map]

theorem status_le {step : α} (member : step ∈ plan.steps) :
    plan.status ≤ Element.status step :=
  le_status_iff.mp (Status.le_refl plan.status) step member

/-- A step that comes no less far than before does not set the plan back. -/
theorem status_le_modifyAt {location : Location} {f : α → α}
    (raises : ∀ step, plan.stepAt? location = some step →
      Element.status step ≤ Element.status (f step)) :
    plan.status ≤ (plan.modifyAt location f).status := by
  rw [le_status_iff]
  intro step member
  obtain ⟨place, found⟩ := mem_steps_iff.mp member
  by_cases here : place = location
  · subst here
    rw [stepAt?_modifyAt_self] at found
    obtain ⟨old, before, rfl⟩ := Option.map_eq_some_iff.mp found
    have inPlan : old ∈ plan.steps := mem_steps_iff.mpr ⟨place, before⟩
    exact Status.le_trans (status_le inPlan) (raises old before)
  · rw [stepAt?_modifyAt_of_ne plan f here] at found
    exact status_le (mem_steps_iff.mpr ⟨place, found⟩)

structure FollowsSteps (plan : Plan α) : Prop where
  least : ∀ step ∈ plan.steps, plan.status ≤ Element.status step
  attained : plan.steps ≠ [] → ∃ step ∈ plan.steps, Element.status step = plan.status
  vacant : plan.steps = [] → plan.status = .complete
  complete : plan.status = .complete ↔ ∀ step ∈ plan.steps, Element.status step = .complete
  /-- Plans that show the same statuses, in whatever phases and however often, agree. -/
  regrouped : ∀ {β : Type} [Element β] (other : Plan β),
    (∀ status, (∃ step ∈ plan.steps, Element.status step = status) ↔
      ∃ step ∈ other.steps, Element.status step = status) → other.status = plan.status
  raised : ∀ (location : Location) (f : α → α),
    (∀ step, plan.stepAt? location = some step →
      Element.status step ≤ Element.status (f step)) →
    plan.status ≤ (plan.modifyAt location f).status
  /-- The previous status decides at neither level. -/
  phases : (plan.phases = [] → plan.status = .complete) ∧
    (plan.phases ≠ [] → ∀ previous,
      Status.aggregate (plan.phases.map Element.status) previous = plan.status)
  steps : ∀ phase ∈ plan.phases, (phase.steps = [] → phase.status = .complete) ∧
    (phase.steps ≠ [] → ∀ previous,
      Status.aggregate (phase.steps.map Element.status) previous = phase.status)

/-- However many phases a plan has, and however many steps each of them, the plan is as far as
the least advanced step. -/
theorem followsSteps_of_aggregation (plan : Plan α) : plan.FollowsSteps where
  least := fun _ member => status_le member
  attained := by
    intro occupied
    have nonempty : plan.steps.map Element.status ≠ [] := by simpa using occupied
    have among : plan.status ∈ plan.steps.map Element.status := by
      rw [status_eq_ofParts, Status.ofParts_eq_aggregate nonempty]
      exact Status.aggregate_mem nonempty
    exact List.mem_map.mp among
  vacant := by
    intro none
    rw [status_eq_ofParts, none]
    rfl
  complete := by
    rw [status_eq_ofParts, Status.ofParts_eq_complete_iff, List.forall_mem_map]
  regrouped := by
    intro β _ other same
    rw [status_eq_ofParts, status_eq_ofParts]
    apply Status.ofParts_congr
    intro status
    rw [List.mem_map, List.mem_map]
    exact (same status).symm
  raised := fun _ _ raises => status_le_modifyAt raises
  phases := Element.statusOfParts_decided plan.phases
  steps := fun phase _ => Element.statusOfParts_decided phase.steps

end Plan

end Rollout
