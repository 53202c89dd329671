import Rollout.Proofs.CandidateSteps

/-! What the name of a step tells.  Under one pod the index in it keeps the names apart, and
nothing more is asked of siblings.  Across pods two steps share a name exactly when the type of
one pod goes on from the name of an instance of the other into its tasks.  A shared name leads to
the first of its steps only; and once a phase hands that one out, the name is taken for the
others. -/

namespace Rollout

/-- No pod type goes on from the name of an instance into tasks. -/
def ServiceFile.Unbracketed (file : ServiceFile) : Prop :=
  ∀ pod ∈ file.pods, ∀ podInstance ∈ pod.instances, ∀ other ∈ file.pods, ∀ more,
    other.podType ≠ podInstance.name ++ ":[" ++ more

namespace Plan

/-- The step at one of two locations shadows the one at the other. -/
def Confusable (plan : Plan Step) (first second : Location) : Prop :=
  first ≠ second ∧ ∃ a b, plan.stepAt? first = some a ∧ plan.stepAt? second = some b ∧
    (a.requirement.podInstance.Shadows b.requirement.podInstance ∨
      b.requirement.podInstance.Shadows a.requirement.podInstance)

/-! ### Finding by name -/

theorem find?_locations_eq_some_iff {α : Type} {plan : Plan α} {p : Location → Bool}
    {location : Location} :
    plan.locations.find? p = some location ↔
      location ∈ plan.locations ∧ p location = true ∧
        ∀ earlier ∈ plan.locations, earlier.Before location → p earlier = false := by
  have ordered : plan.locations.Pairwise Location.Before := locationsFrom_ordered 0 plan.phases
  rw [List.find?_eq_some_iff_append]
  constructor
  · rintro ⟨here, front, rest, shape, passed⟩
    rw [shape] at ordered ⊢
    refine ⟨List.mem_append_right _ List.mem_cons_self, here, ?_⟩
    intro earlier member before
    rcases List.mem_append.mp member with inFront | inRest
    · simpa using passed earlier inFront
    · rcases List.mem_cons.mp inRest with same | later
      · exact False.elim (before.ne same)
      · have after := (List.pairwise_cons.mp (List.pairwise_append.mp ordered).2.1).1 earlier later
        exact False.elim (before.ne (Std.Antisymm.antisymm _ _ before after))
  · rintro ⟨member, here, first⟩
    obtain ⟨front, rest, shape⟩ := List.append_of_mem member
    refine ⟨here, front, rest, shape, ?_⟩
    intro earlier inFront
    rw [shape] at ordered first
    have before := (List.pairwise_append.mp ordered).2.2 earlier inFront location
      List.mem_cons_self
    simpa using first earlier (List.mem_append_left _ inFront) before

section

variable {α : Type} [Element α]

theorem locate?_eq_find? (plan : Plan α) (name : String) :
    plan.locate? name = plan.locations.find? fun location =>
      (plan.stepAt? location).any fun step => Element.name step == name := by
  rw [locate?]
  congr 1

theorem step?_eq_stepAt? (plan : Plan α) (name : String) :
    plan.step? name = (plan.locate? name).bind plan.stepAt? := by
  rw [step?, Element.find?, ← filterMap_stepAt?_locations, List.find?_filterMap,
    locate?_eq_find?]

theorem locate?_eq_some_iff {plan : Plan α} {name : String} {location : Location} :
    plan.locate? name = some location ↔
      (plan.stepAt? location).map Element.name = some name ∧
        ∀ earlier, earlier.Before location →
          (plan.stepAt? earlier).map Element.name ≠ some name := by
  have named : ∀ place, ((plan.stepAt? place).any fun step => Element.name step == name) = true ↔
      (plan.stepAt? place).map Element.name = some name := by
    intro place
    cases plan.stepAt? place <;> simp
  have member : ∀ place, (plan.stepAt? place).map Element.name = some name →
      place ∈ plan.locations := by
    intro place same
    obtain ⟨step, found, _⟩ := Option.map_eq_some_iff.mp same
    exact mem_locations_iff.mpr ⟨step, found⟩
  rw [locate?_eq_find?, find?_locations_eq_some_iff]
  simp only [← Bool.not_eq_true, named]
  constructor
  · rintro ⟨_, here, first⟩
    exact ⟨here, fun earlier before same => first earlier (member earlier same) before same⟩
  · rintro ⟨here, first⟩
    exact ⟨member location here, here, fun earlier _ before => first earlier before⟩

theorem exists_locate? {plan : Plan α} {location : Location} {step : α}
    (found : plan.stepAt? location = some step) :
    ∃ first, plan.locate? (Element.name step) = some first := by
  rw [← Option.isSome_iff_exists, locate?, List.find?_isSome]
  exact ⟨location, mem_locations_iff.mpr ⟨step, found⟩, by simp [found]⟩

end

section

variable {file : ServiceFile} {built reached : Plan Step}

theorem name_eq_iff_confusable (builds : ofService file = .ok built)
    (same : reached.declared = built) {first second : Location} {a b : Step}
    (different : first ≠ second) (atFirst : reached.stepAt? first = some a)
    (atSecond : reached.stepAt? second = some b) :
    a.name = b.name ↔ reached.Confusable first second := by
  obtain ⟨_, _, deploys⟩ := deploys_of_declared builds same atFirst
  obtain ⟨_, _, deploys'⟩ := deploys_of_declared builds same atSecond
  rw [deploys.name, deploys'.name, PodInstance.stepName_eq_iff]
  constructor
  · rintro (⟨types, indices, _⟩ | shadows)
    · exact False.elim
        (different (location_eq_of_instance builds same atFirst atSecond types indices))
    · exact ⟨different, a, b, atFirst, atSecond, shadows⟩
  · rintro ⟨_, a', b', atFirst', atSecond', shadows⟩
    rw [atFirst] at atFirst'
    cases atFirst'
    rw [atSecond] at atSecond'
    cases atSecond'
    exact Or.inr shadows

/-- A step elsewhere has the name of this one exactly when the two are confusable. -/
theorem named_iff_confusable (builds : ofService file = .ok built)
    (same : reached.declared = built) {location other : Location} {step : Step}
    (elsewhere : other ≠ location) (found : reached.stepAt? location = some step) :
    (reached.stepAt? other).map Element.name = some step.name ↔
      reached.Confusable other location := by
  constructor
  · intro named
    obtain ⟨held, atOther, names⟩ := Option.map_eq_some_iff.mp named
    exact (name_eq_iff_confusable builds same elsewhere atOther found).mp names
  · intro confusable
    have ⟨_, held, _, atOther, _, _⟩ := confusable
    rw [atOther]
    exact congrArg some
      ((name_eq_iff_confusable builds same elsewhere atOther found).mpr confusable)

theorem nodup_names_iff (builds : ofService file = .ok built) (same : reached.declared = built) :
    (reached.steps.map (·.name)).Nodup ↔ ∀ first second, ¬ reached.Confusable first second := by
  constructor
  · intro distinct first second confusable
    have ⟨different, a, b, atFirst, atSecond, _⟩ := confusable
    have names := (name_eq_iff_confusable builds same different atFirst atSecond).mpr confusable
    exact different (location_eq_of_key distinct atFirst atSecond names)
  · intro clear
    refine List.pairwise_map.mpr (pairwise_steps ?_)
    intro first second a b before atFirst atSecond names
    exact clear first second
      ((name_eq_iff_confusable builds same before.ne atFirst atSecond).mp names)

theorem locate?_eq_iff (builds : ofService file = .ok built) (same : reached.declared = built)
    {location : Location} {step : Step} (found : reached.stepAt? location = some step) :
    reached.locate? step.name = some location ↔
      ∀ earlier, earlier.Before location → ¬ reached.Confusable earlier location := by
  rw [locate?_eq_some_iff, found]
  constructor
  · rintro ⟨_, first⟩ earlier before
    rw [← named_iff_confusable builds same before.ne found]
    exact first earlier before
  · intro clear
    refine ⟨rfl, ?_⟩
    intro earlier before
    rw [Ne, named_iff_confusable builds same before.ne found]
    exact clear earlier before

theorem claimedBefore_iff (builds : ofService file = .ok built) (same : reached.declared = built)
    {dirty : List String} {location : Location} {step : Step}
    (found : reached.stepAt? location = some step) :
    reached.ClaimedBefore dirty location.phase step.name ↔
      ∃ other ∈ reached.candidateSteps dirty, other.phase < location.phase ∧
        reached.Confusable other location := by
  refine exists_congr fun other => and_congr_right fun _ => and_congr_right fun before => ?_
  have elsewhere : other ≠ location := by
    rintro rfl
    exact Nat.lt_irrefl _ before
  exact named_iff_confusable builds same elsewhere found

/-- Where no two steps are confusable, each chosen phase hands out what it would on its own. -/
theorem mem_candidateSteps_iff_of_clear (builds : ofService file = .ok built)
    (same : reached.declared = built)
    (clear : ∀ first second, ¬ reached.Confusable first second) {dirty : List String}
    {place index : Nat} :
    ⟨place, index⟩ ∈ reached.candidateSteps dirty ↔
      place ∈ reached.candidates dirty ∧ ∃ phase, reached.phases[place]? = some phase ∧
        index ∈ phase.candidates dirty := by
  have unclaimed : ∀ phase, reached.phases[place]? = some phase →
      ∀ (index : Nat) step, phase.steps[index]? = some step →
        ¬ reached.ClaimedBefore dirty place (Element.name step) := by
    intro phase atPlace index step inPhase claimed
    have found : reached.stepAt? ⟨place, index⟩ = some step :=
      stepAt?_eq_some_iff.mpr ⟨phase, atPlace, inPhase⟩
    obtain ⟨other, _, _, confusable⟩ := (claimedBefore_iff builds same found).mp claimed
    exact clear other _ confusable
  rw [mem_candidateSteps_iff]
  refine and_congr_right fun _ => exists_congr fun phase => and_congr_right fun atPlace => ?_
  rw [Phase.mem_candidates_iff]
  refine and_congr_right fun _ => exists_congr fun step => and_congr_right fun inPhase => ?_
  rw [Element.isEligible_iff]
  constructor
  · rintro ⟨pending, valid, clean, _, before⟩
    refine ⟨⟨pending, valid, clean⟩, ?_⟩
    intro serial earlier smaller other atEarlier
    rcases before serial earlier smaller other atEarlier with done | taken | claimed
    · exact Or.inl done
    · exact Or.inr taken
    · exact False.elim (unclaimed phase atPlace earlier other atEarlier claimed)
  · rintro ⟨⟨pending, valid, clean⟩, before⟩
    refine ⟨pending, valid, clean, unclaimed phase atPlace index step inPhase, ?_⟩
    intro serial earlier smaller other atEarlier
    exact (before serial earlier smaller other atEarlier).imp_right Or.inl

theorem clear_of_unbracketed (builds : ofService file = .ok built)
    (same : reached.declared = built) (unbracketed : file.Unbracketed)
    (first second : Location) : ¬ reached.Confusable first second := by
  rintro ⟨_, a, b, atFirst, atSecond, shadows⟩
  obtain ⟨pod, inFile, deploys⟩ := deploys_of_declared builds same atFirst
  obtain ⟨other, inFile', deploys'⟩ := deploys_of_declared builds same atSecond
  rcases shadows with ⟨rest, types, _⟩ | ⟨rest, types, _⟩
  · exact unbracketed pod (List.mem_of_getElem? inFile) _ (List.mem_of_getElem? deploys.listed)
      other (List.mem_of_getElem? inFile') rest (deploys'.podType_eq.symm.trans types)
  · exact unbracketed other (List.mem_of_getElem? inFile') _
      (List.mem_of_getElem? deploys'.listed) pod (List.mem_of_getElem? inFile) rest
      (deploys.podType_eq.symm.trans types)

end

structure NamesSteps (plan : Plan Step) (file : ServiceFile) : Prop where
  siblings : ∀ place i j a b, plan.stepAt? ⟨place, i⟩ = some a →
    plan.stepAt? ⟨place, j⟩ = some b → a.name = b.name → i = j
  shared : ∀ first second a b, first ≠ second → plan.stepAt? first = some a →
    plan.stepAt? second = some b → (a.name = b.name ↔ plan.Confusable first second)
  distinct : (plan.steps.map (·.name)).Nodup ↔ ∀ first second, ¬ plan.Confusable first second
  /-- A name leads to the first step that has it. -/
  found : ∀ location step, plan.stepAt? location = some step →
    ∃ first, plan.locate? step.name = some first ∧ plan.step? step.name = plan.stepAt? first ∧
      (first = location ↔
        ∀ earlier, earlier.Before location → ¬ plan.Confusable earlier location)
  /-- A name is taken for a step when a confusable one is handed out of an earlier phase. -/
  hidden : ∀ dirty location step, plan.stepAt? location = some step →
    (plan.ClaimedBefore dirty location.phase step.name ↔
      ∃ other ∈ plan.candidateSteps dirty, other.phase < location.phase ∧
        plan.Confusable other location)
  /-- Under distinct names every name leads to its step and hides no other. -/
  identify : (plan.steps.map (·.name)).Nodup →
    (∀ location step, plan.stepAt? location = some step →
      plan.locate? step.name = some location ∧ plan.step? step.name = some step) ∧
    ∀ dirty place index, ⟨place, index⟩ ∈ plan.candidateSteps dirty ↔
      place ∈ plan.candidates dirty ∧ ∃ phase, plan.phases[place]? = some phase ∧
        index ∈ phase.candidates dirty
  unbracketed : file.Unbracketed → (plan.steps.map (·.name)).Nodup

theorem namesSteps_of_declared {file : ServiceFile} {built reached : Plan Step}
    (builds : ofService file = .ok built) (same : reached.declared = built) :
    reached.NamesSteps file where
  siblings := fun _ _ _ _ _ => index_eq_of_name builds same
  shared := fun _ _ _ _ different atFirst atSecond =>
    name_eq_iff_confusable builds same different atFirst atSecond
  distinct := nodup_names_iff builds same
  found := by
    intro location step found
    obtain ⟨first, located⟩ := exists_locate? found
    refine ⟨first, located, ?_, ?_⟩
    · rw [step?_eq_stepAt?, show reached.locate? step.name = some first from located]
      rfl
    · rw [← locate?_eq_iff builds same found, show reached.locate? step.name = _ from located,
        Option.some.injEq]
  hidden := fun _ _ _ => claimedBefore_iff builds same
  identify := by
    intro distinct
    have clear := (nodup_names_iff builds same).mp distinct
    refine ⟨?_, fun _ _ _ => mem_candidateSteps_iff_of_clear builds same clear⟩
    intro location step found
    have located := (locate?_eq_iff builds same found).mpr fun earlier _ => clear earlier location
    refine ⟨located, ?_⟩
    rw [step?_eq_stepAt?, located]
    exact found
  unbracketed := fun plain =>
    (nodup_names_iff builds same).mpr (clear_of_unbracketed builds same plain)

/-- In every state of every history of a built plan, names tell siblings apart, and other
steps unless one shadows the other. -/
theorem namesSteps_of_history {σ : Type} {file : ServiceFile} {plan : Plan Step}
    (built : ofService file = .ok plan) (evaluator : σ) (operations : List (Operation σ)) :
    (Session.run ⟨plan, evaluator⟩ operations).plan.NamesSteps file := by
  apply namesSteps_of_declared built
  rw [Session.declared_run]
  exact declared_built built

/-- A pod type goes on from the name of an instance into its first task, but no step shadows
another. -/
theorem namesSteps_of_relatives :
    let pods : List PodSection := [
      ⟨"index", 2, none, none, [⟨"server", none, none⟩, ⟨"sidecar", none, none⟩]⟩,
      ⟨"index-0:[server", 1, none, none, [⟨"sidecar", none, none⟩]⟩]
    let file : ServiceFile := ⟨⟨"search", none⟩, none, none, pods⟩
    let plan := Plan.new deployName (file.pods.map PodSection.phase) file.planStrategy
    let reached := (Session.run ⟨plan, SlotPool.unbounded⟩
      [.pass (SlotPool.evaluate Nat.repr) []]).plan
    reached.steps.map (·.name) =
        ["index-0:[server,sidecar]", "index-1:[server,sidecar]", "index-0:[server-0:[sidecar]"] ∧
      reached.NamesSteps file := by
  intro pods file plan reached
  have built : ofService file = .ok plan := rfl
  exact ⟨by decide +kernel, namesSteps_of_history built _ _⟩

/-- Two valid pods whose first steps share a name.  The name leads to the first pod's step
only, and the second pod, although serial, starts with its second step. -/
theorem shared_name_hides_step :
    let pods : List PodSection := [
      ⟨"index", 1, none, none, [⟨"a]-0:[b", none, none⟩]⟩,
      ⟨"index-0:[a]", 2, some .serial, none, [⟨"b", none, none⟩]⟩]
    let file : ServiceFile := ⟨⟨"search", none⟩, some ⟨some .parallel⟩, none, pods⟩
    let plan := Plan.new deployName (file.pods.map PodSection.phase) file.planStrategy
    ofService file = .ok plan ∧ (∀ step ∈ plan.steps, step.errors = []) ∧
      plan.steps.map (·.name) =
        ["index-0:[a]-0:[b]", "index-0:[a]-0:[b]", "index-0:[a]-1:[b]"] ∧
      ¬ (plan.steps.map (·.name)).Nodup ∧
      (plan.stepAt? ⟨1, 0⟩).map (·.name) = some "index-0:[a]-0:[b]" ∧
      plan.locate? "index-0:[a]-0:[b]" = some ⟨0, 0⟩ ∧
      plan.step? "index-0:[a]-0:[b]" ≠ plan.stepAt? ⟨1, 0⟩ ∧
      plan.ClaimedBefore [] 1 "index-0:[a]-0:[b]" ∧
      plan.candidateSteps [] = [⟨0, 0⟩, ⟨1, 1⟩] := by
  intro pods file plan
  have names : plan.steps.map (·.name) =
      ["index-0:[a]-0:[b]", "index-0:[a]-0:[b]", "index-0:[a]-1:[b]"] := by decide +kernel
  have picked : plan.candidateSteps [] = [⟨0, 0⟩, ⟨1, 1⟩] := by decide +kernel
  refine ⟨rfl, by decide +kernel, names, ?_, by decide +kernel, by decide +kernel,
    by decide +kernel, ?_, picked⟩
  · rw [names]
    decide
  · refine ⟨⟨0, 0⟩, ?_, Nat.zero_lt_one, by decide +kernel⟩
    rw [picked]
    exact List.mem_cons_self

end Plan

end Rollout
