import Rollout.Plan.Basic

/-! Steps by their locations.  A plan is determined by the frames of its phases and the step at
each location; a change at one location is seen nowhere else, and changing every location in turn
is the same as changing every step. -/

namespace Rollout

def Phase.frame {α : Type} (phase : Phase α) : String × Strategy × List String :=
  (phase.name, phase.strategy, phase.errors)

namespace Location

/-- The order in which a plan names its steps. -/
def Before (first second : Location) : Prop :=
  first.phase < second.phase ∨ first.phase = second.phase ∧ first.step < second.step

theorem before_trichotomy (first second : Location) :
    first.Before second ∨ first = second ∨ second.Before first := by
  cases first
  cases second
  simp only [Before, mk.injEq]
  omega

theorem Before.ne {first second : Location} (before : first.Before second) :
    first ≠ second := by
  intro same
  subst same
  unfold Before at before
  omega

end Location

namespace Plan

variable {α : Type}

theorem stepAt?_eq_some_iff {plan : Plan α} {location : Location} {step : α} :
    plan.stepAt? location = some step ↔
      ∃ phase, plan.phases[location.phase]? = some phase ∧
        phase.steps[location.step]? = some step := by
  unfold stepAt?
  cases plan.phases[location.phase]? with
  | none => simp
  | some phase => simp

theorem stepAt?_of_phase {plan : Plan α} {place : Nat} {phase : Phase α}
    (found : plan.phases[place]? = some phase) (index : Nat) :
    plan.stepAt? ⟨place, index⟩ = phase.steps[index]? := by
  unfold stepAt?
  rw [found]
  rfl

theorem exists_stepAt?_of_mem {plan : Plan α} {place : Nat} {phase : Phase α}
    (found : plan.phases[place]? = some phase) {step : α} (member : step ∈ phase.steps) :
    ∃ index, plan.stepAt? ⟨place, index⟩ = some step := by
  obtain ⟨index, inPhase⟩ := List.mem_iff_getElem?.mp member
  exact ⟨index, (stepAt?_of_phase found index).trans inPhase⟩

theorem mem_steps_iff {plan : Plan α} {step : α} :
    step ∈ plan.steps ↔ ∃ location, plan.stepAt? location = some step := by
  unfold steps
  rw [List.mem_flatMap]
  constructor
  · rintro ⟨phase, inPlan, inPhase⟩
    obtain ⟨place, atPlace⟩ := List.mem_iff_getElem?.mp inPlan
    obtain ⟨index, atIndex⟩ := List.mem_iff_getElem?.mp inPhase
    exact ⟨⟨place, index⟩, stepAt?_eq_some_iff.mpr ⟨phase, atPlace, atIndex⟩⟩
  · rintro ⟨location, found⟩
    obtain ⟨phase, atPlace, atIndex⟩ := stepAt?_eq_some_iff.mp found
    exact ⟨phase, List.mem_of_getElem? atPlace, List.mem_of_getElem? atIndex⟩

/-! ### Changing one step -/

theorem phases_modifyAt (plan : Plan α) (location : Location) (f : α → α) (place : Nat) :
    (plan.modifyAt location f).phases[place]? =
      if location.phase = place then
        (plan.phases[place]?).map fun phase => phase.modifyAt location.step f
      else plan.phases[place]? := by
  simp only [modifyAt, modifyPhaseAt, List.getElem?_modify]
  by_cases same : location.phase = place
  · simp only [if_pos same]
    cases plan.phases[place]? <;> rfl
  · simp only [if_neg same]
    cases plan.phases[place]? <;> rfl

theorem stepAt?_modifyAt_self (plan : Plan α) (location : Location) (f : α → α) :
    (plan.modifyAt location f).stepAt? location = (plan.stepAt? location).map f := by
  unfold stepAt?
  rw [phases_modifyAt, if_pos rfl]
  cases plan.phases[location.phase]? with
  | none => rfl
  | some phase =>
      change (phase.steps.modify location.step f)[location.step]? =
        (phase.steps[location.step]?).map f
      rw [List.getElem?_modify_eq]
      cases phase.steps[location.step]? <;> rfl

theorem stepAt?_modifyAt_of_ne (plan : Plan α) {location other : Location} (f : α → α)
    (different : other ≠ location) :
    (plan.modifyAt location f).stepAt? other = plan.stepAt? other := by
  unfold stepAt?
  rw [phases_modifyAt]
  by_cases same : location.phase = other.phase
  · rw [if_pos same]
    cases plan.phases[other.phase]? with
    | none => rfl
    | some phase =>
        have apart : location.step ≠ other.step := by
          intro equal
          apply different
          cases location
          cases other
          cases same
          cases equal
          rfl
        change (phase.steps.modify location.step f)[other.step]? = phase.steps[other.step]?
        rw [List.getElem?_modify_ne f phase.steps apart]
  · rw [if_neg same]

theorem phases_mapSteps (plan : Plan α) (f : α → α) (place : Nat) :
    (plan.mapSteps f).phases[place]? = (plan.phases[place]?).map (Phase.mapSteps f) :=
  List.getElem?_map

theorem stepAt?_mapSteps (plan : Plan α) (f : α → α) (location : Location) :
    (plan.mapSteps f).stepAt? location = (plan.stepAt? location).map f := by
  unfold stepAt?
  rw [phases_mapSteps]
  cases plan.phases[location.phase]? with
  | none => rfl
  | some phase => exact List.getElem?_map

/-! ### Extensionality -/

theorem frame_modifyAt (plan : Plan α) (location : Location) (f : α → α) (place : Nat) :
    ((plan.modifyAt location f).phases[place]?).map Phase.frame =
      (plan.phases[place]?).map Phase.frame := by
  rw [phases_modifyAt]
  split
  · cases plan.phases[place]? <;> rfl
  · rfl

theorem frame_mapSteps (plan : Plan α) (f : α → α) (place : Nat) :
    ((plan.mapSteps f).phases[place]?).map Phase.frame =
      (plan.phases[place]?).map Phase.frame := by
  rw [phases_mapSteps]
  cases plan.phases[place]? <;> rfl

theorem ext_stepAt? {plan other : Plan α} (name : plan.name = other.name)
    (strategy : plan.strategy = other.strategy) (errors : plan.errors = other.errors)
    (frames : ∀ place : Nat, (plan.phases[place]?).map Phase.frame =
      (other.phases[place]?).map Phase.frame)
    (steps : ∀ location, plan.stepAt? location = other.stepAt? location) : plan = other := by
  have phases : plan.phases = other.phases := by
    apply List.ext_getElem?
    intro place
    have frame := frames place
    cases left : plan.phases[place]? with
    | none =>
        rw [left] at frame
        cases right : other.phases[place]? with
        | none => rfl
        | some phase =>
            rw [right] at frame
            cases frame
    | some phase =>
        rw [left] at frame
        cases right : other.phases[place]? with
        | none =>
            rw [right] at frame
            cases frame
        | some partner =>
            rw [right] at frame
            have inside : phase.steps = partner.steps := by
              apply List.ext_getElem?
              intro index
              rw [← stepAt?_of_phase left index, ← stepAt?_of_phase right index]
              exact steps ⟨place, index⟩
            cases phase
            cases partner
            simp only [Option.map_some, Phase.frame, Option.some.injEq, Prod.mk.injEq] at frame
            simp only at inside
            obtain ⟨rfl, rfl, rfl⟩ := frame
            rw [inside]
  cases plan
  cases other
  cases name
  cases strategy
  cases errors
  cases phases
  rfl

theorem mapSteps_eq_self {plan : Plan α} {f : α → α}
    (same : ∀ location step, plan.stepAt? location = some step → f step = step) :
    plan.mapSteps f = plan := by
  refine ext_stepAt? rfl rfl rfl (frame_mapSteps plan f) ?_
  intro location
  rw [stepAt?_mapSteps]
  cases found : plan.stepAt? location with
  | none => rfl
  | some step => exact congrArg some (same location step found)

theorem modifyAt_congr {plan : Plan α} {location : Location} {f g : α → α}
    (same : ∀ step, plan.stepAt? location = some step → f step = g step) :
    plan.modifyAt location f = plan.modifyAt location g := by
  refine ext_stepAt? rfl rfl rfl ?_ ?_
  · intro place
    rw [frame_modifyAt, frame_modifyAt]
  · intro place
    by_cases here : place = location
    · subst here
      rw [stepAt?_modifyAt_self, stepAt?_modifyAt_self]
      cases found : plan.stepAt? place with
      | none => rfl
      | some step => exact congrArg some (same step found)
    · rw [stepAt?_modifyAt_of_ne plan f here, stepAt?_modifyAt_of_ne plan g here]

theorem modifyAt_eq_self {plan : Plan α} {location : Location} {f : α → α}
    (same : ∀ step, plan.stepAt? location = some step → f step = step) :
    plan.modifyAt location f = plan := by
  have still : plan.modifyAt location id = plan := by
    have inside : (fun phase : Phase α => phase.modifyAt location.step id) = id := by
      funext phase
      rw [Phase.modifyAt, List.modify_id]
      rfl
    rw [modifyAt, modifyPhaseAt, inside, List.modify_id]
  exact (modifyAt_congr same).trans still

/-! ### Steps in order -/

private theorem pairwise_at {β : Type} {R : β → β → Prop} {items : List β}
    (ordered : items.Pairwise R) {i j : Nat} {a b : β} (before : i < j)
    (first : items[i]? = some a) (second : items[j]? = some b) : R a b := by
  obtain ⟨insideFirst, atFirst⟩ := List.getElem?_eq_some_iff.mp first
  obtain ⟨insideSecond, atSecond⟩ := List.getElem?_eq_some_iff.mp second
  rw [← atFirst, ← atSecond]
  exact List.pairwise_iff_getElem.mp ordered i j insideFirst insideSecond before

theorem steps_pairwise {R : α → α → Prop} {plan : Plan α} (ordered : plan.steps.Pairwise R)
    {first second : Location} {a b : α} (before : first.Before second)
    (atFirst : plan.stepAt? first = some a) (atSecond : plan.stepAt? second = some b) :
    R a b := by
  obtain ⟨within, across⟩ := List.pairwise_flatMap.mp ordered
  obtain ⟨phase, inPlan, inPhase⟩ := stepAt?_eq_some_iff.mp atFirst
  obtain ⟨later, laterInPlan, laterInPhase⟩ := stepAt?_eq_some_iff.mp atSecond
  rcases before with phases | ⟨same, steps⟩
  · exact pairwise_at across phases inPlan laterInPlan a (List.mem_of_getElem? inPhase) b
      (List.mem_of_getElem? laterInPhase)
  · rw [same, laterInPlan] at inPlan
    cases inPlan
    exact pairwise_at (within _ (List.mem_of_getElem? laterInPlan)) steps inPhase laterInPhase

theorem pairwise_steps {R : α → α → Prop} {plan : Plan α}
    (ordered : ∀ first second a b, first.Before second → plan.stepAt? first = some a →
      plan.stepAt? second = some b → R a b) : plan.steps.Pairwise R := by
  apply List.pairwise_flatMap.mpr
  constructor
  · intro phase member
    obtain ⟨place, inPlan⟩ := List.mem_iff_getElem?.mp member
    rw [List.pairwise_iff_getElem]
    intro i j insideFirst insideSecond before
    apply ordered ⟨place, i⟩ ⟨place, j⟩ _ _ (Or.inr ⟨rfl, before⟩)
    · rw [stepAt?_of_phase inPlan, List.getElem?_eq_getElem insideFirst]
    · rw [stepAt?_of_phase inPlan, List.getElem?_eq_getElem insideSecond]
  · rw [List.pairwise_iff_getElem]
    intro i j insideFirst insideSecond before a inFirst b inSecond
    obtain ⟨first, atFirst⟩ := List.mem_iff_getElem?.mp inFirst
    obtain ⟨second, atSecond⟩ := List.mem_iff_getElem?.mp inSecond
    apply ordered ⟨i, first⟩ ⟨j, second⟩ a b (Or.inl before)
    · rw [stepAt?_of_phase (List.getElem?_eq_getElem insideFirst), atFirst]
    · rw [stepAt?_of_phase (List.getElem?_eq_getElem insideSecond), atSecond]

/-- Under distinct keys a step is found at one location only. -/
theorem location_eq_of_key {κ : Type} {key : α → κ} {plan : Plan α}
    (distinct : (plan.steps.map key).Nodup) {first second : Location} {a b : α}
    (atFirst : plan.stepAt? first = some a) (atSecond : plan.stepAt? second = some b)
    (same : key a = key b) : first = second := by
  have apart : plan.steps.Pairwise fun a b => key a ≠ key b := List.pairwise_map.mp distinct
  rcases first.before_trichotomy second with before | equal | after
  · exact False.elim (steps_pairwise apart before atFirst atSecond same)
  · exact equal
  · exact False.elim (steps_pairwise apart after atSecond atFirst same.symm)

theorem mem_locationsFrom_iff {phases : List (Phase α)} {place : Nat} {location : Location} :
    location ∈ locationsFrom place phases ↔
      ∃ index phase, location.phase = place + index ∧ phases[index]? = some phase ∧
        location.step < phase.steps.length := by
  induction phases generalizing place with
  | nil => simp [locationsFrom]
  | cons phase rest ih =>
      rw [locationsFrom, List.mem_append, ih]
      constructor
      · rintro (here | ⟨index, found, same, atIndex, inside⟩)
        · obtain ⟨step, inside, rfl⟩ := List.mem_map.mp here
          exact ⟨0, phase, rfl, rfl, List.mem_range.mp inside⟩
        · exact ⟨index + 1, found, by omega, atIndex, inside⟩
      · rintro ⟨index, found, same, atIndex, inside⟩
        cases index with
        | zero =>
            cases atIndex
            left
            refine List.mem_map.mpr ⟨location.step, List.mem_range.mpr inside, ?_⟩
            cases location
            cases same
            rfl
        | succ index => exact Or.inr ⟨index, found, by omega, atIndex, inside⟩

theorem locationsFrom_ordered (place : Nat) (phases : List (Phase α)) :
    (locationsFrom place phases).Pairwise Location.Before := by
  induction phases generalizing place with
  | nil => exact List.Pairwise.nil
  | cons phase rest ih =>
      rw [locationsFrom, List.pairwise_append]
      refine ⟨?_, ih (place + 1), ?_⟩
      · exact List.pairwise_map.mpr
          (List.pairwise_lt_range.imp fun smaller => Or.inr ⟨rfl, smaller⟩)
      · intro first here second later
        obtain ⟨step, _, rfl⟩ := List.mem_map.mp here
        obtain ⟨index, _, found, _, _⟩ := mem_locationsFrom_iff.mp later
        left
        simp only
        omega

theorem mem_locations_iff {plan : Plan α} {location : Location} :
    location ∈ plan.locations ↔ ∃ step, plan.stepAt? location = some step := by
  unfold locations
  rw [mem_locationsFrom_iff]
  constructor
  · rintro ⟨index, phase, same, atIndex, inside⟩
    rw [Nat.zero_add] at same
    subst same
    exact ⟨phase.steps[location.step], stepAt?_eq_some_iff.mpr
      ⟨phase, atIndex, List.getElem?_eq_getElem inside⟩⟩
  · rintro ⟨step, found⟩
    obtain ⟨phase, inPlan, inPhase⟩ := stepAt?_eq_some_iff.mp found
    exact ⟨location.phase, phase, (Nat.zero_add _).symm, inPlan,
      (List.getElem?_eq_some_iff.mp inPhase).1⟩

theorem locations_nodup (plan : Plan α) : plan.locations.Nodup :=
  (locationsFrom_ordered 0 plan.phases).imp Location.Before.ne

theorem length_locations (plan : Plan α) : plan.locations.length = plan.steps.length := by
  have each : ∀ (phases : List (Phase α)) (place : Nat),
      (locationsFrom place phases).length = (phases.flatMap (·.steps)).length := by
    intro phases
    induction phases with
    | nil => intro place; rfl
    | cons phase rest ih =>
        intro place
        rw [locationsFrom, List.length_append, ih, List.flatMap_cons, List.length_append]
        simp [locationsOf]
  exact each plan.phases 0

private theorem filterMap_range {β : Type} (items : List β) :
    (List.range items.length).filterMap (fun index => items[index]?) = items := by
  induction items with
  | nil => rfl
  | cons first rest ih =>
      rw [List.length_cons, List.range_succ_eq_map, List.filterMap_cons, List.filterMap_map]
      exact congrArg (first :: ·) ih

theorem filterMap_stepAt?_locationsOf {plan : Plan α} {place : Nat} {phase : Phase α}
    (found : plan.phases[place]? = some phase) :
    (locationsOf place phase).filterMap plan.stepAt? = phase.steps := by
  have each : plan.stepAt? ∘ (Location.mk place ·) = fun step : Nat => phase.steps[step]? :=
    funext (stepAt?_of_phase found)
  rw [locationsOf, List.filterMap_map, each, filterMap_range]

theorem filterMap_stepAt?_locationsFrom {plan : Plan α} {rest : List (Phase α)} {place : Nat}
    (behind : plan.phases.drop place = rest) :
    (locationsFrom place rest).filterMap plan.stepAt? = rest.flatMap (·.steps) := by
  induction rest generalizing place with
  | nil => rfl
  | cons phase others ih =>
      have found : plan.phases[place]? = some phase := by
        rw [← List.head?_drop, behind]
        rfl
      have next : plan.phases.drop (place + 1) = others := by
        rw [← List.tail_drop, behind]
        rfl
      rw [locationsFrom, List.filterMap_append, filterMap_stepAt?_locationsOf found, ih next,
        List.flatMap_cons]

theorem filterMap_stepAt?_locations (plan : Plan α) :
    plan.locations.filterMap plan.stepAt? = plan.steps :=
  filterMap_stepAt?_locationsFrom rfl

theorem length_filter_steps_eq_one_iff {plan : Plan α} {p : α → Bool} {location : Location}
    {step : α} (found : plan.stepAt? location = some step) (holds : p step = true) :
    (plan.steps.filter p).length = 1 ↔
      ∀ other held, plan.stepAt? other = some held → p held = true → other = location := by
  let chosen := plan.locations.filter fun other => ((plan.stepAt? other).filter p).isSome
  have length : (plan.steps.filter p).length = chosen.length := by
    rw [← filterMap_stepAt?_locations, List.filter_filterMap, List.length_filterMap_eq_countP,
      List.countP_eq_length_filter]
  have mem_chosen : ∀ other, other ∈ chosen ↔
      ∃ held, plan.stepAt? other = some held ∧ p held = true := by
    intro other
    simp only [chosen, List.mem_filter, mem_locations_iff]
    cases plan.stepAt? other <;> simp
  have inside : location ∈ chosen := (mem_chosen location).mpr ⟨step, found, holds⟩
  rw [length]
  constructor
  · intro single other held atOther owns
    obtain ⟨only, same⟩ := List.length_eq_one_iff.mp single
    have among : other ∈ chosen := (mem_chosen other).mpr ⟨held, atOther, owns⟩
    rw [same] at inside among
    rw [List.mem_singleton.mp among, List.mem_singleton.mp inside]
  · intro unique
    have all : ∀ other ∈ chosen, other = location := by
      intro other among
      obtain ⟨held, atOther, owns⟩ := (mem_chosen other).mp among
      exact unique other held atOther owns
    have distinct : chosen.Nodup := plan.locations_nodup.filter _
    rw [List.eq_replicate_of_mem all] at distinct
    have few := List.nodup_replicate.mp distinct
    have some' := List.length_pos_of_mem inside
    omega

/-! ### Changing steps in turn -/

theorem stepAt?_foldl_modifyAt (f : α → α) {locations : List Location}
    (distinct : locations.Nodup) (plan : Plan α) (location : Location) :
    (locations.foldl (fun plan location => plan.modifyAt location f) plan).stepAt? location =
      if location ∈ locations then (plan.stepAt? location).map f
      else plan.stepAt? location := by
  induction locations generalizing plan with
  | nil => rfl
  | cons first rest ih =>
      obtain ⟨absent, others⟩ := List.nodup_cons.mp distinct
      rw [List.foldl_cons, ih others]
      by_cases same : location = first
      · subst same
        rw [if_neg absent, if_pos List.mem_cons_self, stepAt?_modifyAt_self]
      · rw [stepAt?_modifyAt_of_ne plan f same]
        simp only [List.mem_cons, same, false_or]

theorem frame_foldl_modifyAt (f : α → α) (locations : List Location) (plan : Plan α)
    (place : Nat) :
    ((locations.foldl (fun plan location => plan.modifyAt location f) plan).phases[place]?).map
      Phase.frame = (plan.phases[place]?).map Phase.frame := by
  induction locations generalizing plan with
  | nil => rfl
  | cons first rest ih => rw [List.foldl_cons, ih, frame_modifyAt]

theorem foldl_modifyAt_locations (plan : Plan α) (f : α → α) :
    plan.locations.foldl (fun plan location => plan.modifyAt location f) plan =
      plan.mapSteps f := by
  have outer : ∀ (locations : List Location) (plan : Plan α),
      (locations.foldl (fun plan location => plan.modifyAt location f) plan).name = plan.name ∧
      (locations.foldl (fun plan location => plan.modifyAt location f) plan).strategy =
        plan.strategy ∧
      (locations.foldl (fun plan location => plan.modifyAt location f) plan).errors =
        plan.errors := by
    intro locations
    induction locations with
    | nil => intro plan; exact ⟨rfl, rfl, rfl⟩
    | cons first rest ih => intro plan; exact ih (plan.modifyAt first f)
  obtain ⟨name, strategy, errors⟩ := outer plan.locations plan
  refine ext_stepAt? name strategy errors ?_ ?_
  · intro place
    rw [frame_foldl_modifyAt, frame_mapSteps]
  · intro location
    rw [stepAt?_foldl_modifyAt f plan.locations_nodup, stepAt?_mapSteps]
    split
    · rfl
    · rename_i outside
      cases found : plan.stepAt? location with
      | none => rfl
      | some step => exact False.elim (outside (mem_locations_iff.mpr ⟨step, found⟩))

end Plan

end Rollout
