import Mathlib.Data.List.Sort
import Rollout.Proofs.Plan.Built
import Rollout.Proofs.Plan.Operations
import Rollout.Proofs.PodNames

/-! Which steps a plan hands out, for a pass or to whoever asks.  A step is handed out exactly
when its phase is chosen, it is eligible in its phase, and no step of an earlier phase has claimed
its name.  Claims grow from phase to phase but not within one; there the index in the name of a
step keeps the names apart, so that no name is handed out twice. -/

namespace Rollout

instance : Std.Antisymm Location.Before :=
  ⟨fun first second before after => by
    simp only [Location.Before] at before after
    omega⟩

namespace Plan

section

variable {α : Type} [Element α]

def handedOut (plan : Plan α) (dirty : List String) : List α :=
  (plan.candidateSteps dirty).filterMap plan.stepAt?

def ClaimedBefore (plan : Plan α) (dirty : List String) (place : Nat) (name : String) : Prop :=
  ∃ location ∈ plan.candidateSteps dirty, location.phase < place ∧
    (plan.stepAt? location).map Element.name = some name

theorem candidateSteps_sublist (plan : Plan α) (dirty : List String) :
    (plan.candidateSteps dirty).Sublist plan.locations := by
  have within : plan.candidateSteps dirty ⊆ plan.locations := by
    intro location member
    obtain ⟨step, found, _⟩ := eligible_of_mem_candidateSteps member
    exact mem_locations_iff.mpr ⟨step, found⟩
  exact List.sublist_of_subperm_of_pairwise
    (List.subperm_of_subset (plan.candidateSteps_nodup dirty) within)
    (plan.candidateSteps_ordered dirty) (locationsFrom_ordered 0 plan.phases)

theorem handedOut_sublist (plan : Plan α) (dirty : List String) :
    (plan.handedOut dirty).Sublist plan.steps := by
  rw [← plan.filterMap_stepAt?_locations]
  exact (plan.candidateSteps_sublist dirty).filterMap plan.stepAt?

/-- Claimed names count as taken from the next phase on. -/
theorem mem_candidateSteps_iff {plan : Plan α} {dirty : List String} {place index : Nat} :
    ⟨place, index⟩ ∈ plan.candidateSteps dirty ↔
      place ∈ plan.candidates dirty ∧ ∃ phase, plan.phases[place]? = some phase ∧
        phase.strategy.interrupted = false ∧ ∃ step, phase.steps[index]? = some step ∧
          (Element.status step).isPending = true ∧ Element.errors step = [] ∧
          Element.name step ∉ dirty ∧ ¬ plan.ClaimedBefore dirty place (Element.name step) ∧
          (phase.strategy.kind = .serial → ∀ earlier < index, ∀ other,
            phase.steps[earlier]? = some other →
              Element.isComplete other = true ∨ Element.name other ∈ dirty ∨
                plan.ClaimedBefore dirty place (Element.name other)) := by
  constructor
  · intro member
    have chosen : place ∈ plan.candidates dirty := phase_of_mem_collect member
    obtain ⟨_, phase, found, _, _⟩ := mem_candidates_iff.mp chosen
    obtain ⟨names, named, picks⟩ := candidateSteps_at chosen found
    obtain ⟨proceeds, step, inPhase, eligible, before⟩ :=
      Phase.mem_candidates_iff.mp ((picks index).mp member)
    obtain ⟨pending, valid, clean⟩ := Element.isEligible_iff.mp eligible
    rw [List.mem_append, not_or, named] at clean
    refine ⟨chosen, phase, found, proceeds, step, inPhase, pending, valid, clean.1, clean.2, ?_⟩
    intro serial earlier smaller other atEarlier
    have passed := before serial earlier smaller other atEarlier
    rw [List.mem_append, named] at passed
    exact passed
  · rintro ⟨chosen, phase, found, proceeds, step, inPhase, pending, valid, clean, unclaimed,
      before⟩
    obtain ⟨names, named, picks⟩ := candidateSteps_at chosen found
    refine (picks index).mpr (Phase.mem_candidates_iff.mpr ⟨proceeds, step, inPhase, ?_, ?_⟩)
    · refine Element.isEligible_iff.mpr ⟨pending, valid, ?_⟩
      rw [List.mem_append, not_or, named]
      exact ⟨clean, unclaimed⟩
    · intro serial earlier smaller other atEarlier
      rw [List.mem_append, named]
      exact before serial earlier smaller other atEarlier

theorem nodup_names_handedOut {plan : Plan α} (dirty : List String)
    (distinct : ∀ place i j a b, plan.stepAt? ⟨place, i⟩ = some a →
      plan.stepAt? ⟨place, j⟩ = some b → Element.name a = Element.name b → i = j) :
    ((plan.handedOut dirty).map Element.name).Nodup := by
  rw [List.Nodup, List.pairwise_map, handedOut, List.pairwise_filterMap]
  refine (plan.candidateSteps_ordered dirty).imp_of_mem ?_
  intro first second inFirst inSecond before a atFirst b atSecond same
  rcases before with phases | ⟨phases, steps⟩
  · -- the first step has claimed the name
    obtain ⟨_, phase, found, _, step, inPhase, _, _, _, unclaimed, _⟩ :=
      mem_candidateSteps_iff.mp inSecond
    rw [stepAt?_eq_some_iff.mpr ⟨phase, found, inPhase⟩, Option.some.injEq] at atSecond
    subst atSecond
    apply unclaimed
    refine ⟨first, inFirst, phases, ?_⟩
    rw [atFirst, ← same]
    rfl
  · obtain ⟨place, i⟩ := first
    obtain ⟨other, j⟩ := second
    simp only at phases steps
    subst phases
    have equal := distinct place i j a b atFirst atSecond same
    omega

end

/-! ### Built plans -/

/-- Instances of one pod have different indices, which the names of their steps show. -/
theorem index_eq_of_name {file : ServiceFile} {plan reached : Plan Step}
    (built : ofService file = .ok plan) (same : reached.declared = plan) {place i j : Nat}
    {a b : Step} (atFirst : reached.stepAt? ⟨place, i⟩ = some a)
    (atSecond : reached.stepAt? ⟨place, j⟩ = some b) (names : a.name = b.name) : i = j := by
  obtain ⟨pod, inFile, first⟩ := deploys_of_declared built same atFirst
  obtain ⟨other, inFile', second⟩ := deploys_of_declared built same atSecond
  rw [inFile] at inFile'
  cases inFile'
  have stepNames := first.name.symm.trans (names.trans second.name)
  have indices : a.requirement.podInstance.index = b.requirement.podInstance.index :=
    (PodInstance.stepName_inj (first.podType_eq.trans second.podType_eq.symm) stepNames).1
  calc i = a.requirement.podInstance.index.toNat := first.index_eq.symm
    _ = b.requirement.podInstance.index.toNat := congrArg UInt32.toNat indices
    _ = j := second.index_eq

/-- What a plan hands out while some names are taken elsewhere. -/
structure HandsOut (plan : Plan Step) (dirty : List String) : Prop where
  /-- Steps of the plan, in its order. -/
  inOrder : (plan.candidateSteps dirty).Sublist plan.locations ∧
    (plan.handedOut dirty).Sublist plan.steps
  distinct : ((plan.handedOut dirty).map (·.name)).Nodup
  runnable : ∀ location ∈ plan.candidateSteps dirty, ∃ phase step,
    plan.phases[location.phase]? = some phase ∧ phase.steps[location.step]? = some step ∧
      (step.status = .pending ∨ step.status = .prepared) ∧ step.errors = [] ∧
      step.name ∉ dirty ∧ plan.strategy.interrupted = false ∧
      phase.strategy.interrupted = false ∧ phase.name ∉ dirty
  /-- A serial phase gives one step, behind steps that are complete or taken. -/
  serialPhase : ∀ location ∈ plan.candidateSteps dirty, ∀ phase,
    plan.phases[location.phase]? = some phase → phase.strategy.kind = .serial →
      (∀ other ∈ plan.candidateSteps dirty, other.phase = location.phase → other = location) ∧
      ∀ earlier < location.step, ∀ step, phase.steps[earlier]? = some step →
        step.status = .complete ∨ step.name ∈ dirty ∨
          plan.ClaimedBefore dirty location.phase step.name
  /-- A serial plan gives steps of one phase, behind phases that are complete or taken. -/
  serialPlan : plan.strategy.kind = .serial → ∀ location ∈ plan.candidateSteps dirty,
    (∀ other ∈ plan.candidateSteps dirty, other.phase = location.phase) ∧
      ∀ earlier < location.phase, ∀ phase, plan.phases[earlier]? = some phase →
        phase.status = .complete ∨ phase.name ∈ dirty
  /-- A chosen parallel phase holds back no step but for its name. -/
  complete : ∀ place ∈ plan.candidates dirty, ∀ phase, plan.phases[place]? = some phase →
    phase.strategy.kind = .parallel → phase.strategy.interrupted = false →
      ∀ (index : Nat) step, phase.steps[index]? = some step → step.status.isPending = true →
        step.errors = [] → ⟨place, index⟩ ∈ plan.candidateSteps dirty ∨ step.name ∈ dirty ∨
          plan.ClaimedBefore dirty place step.name

section

variable {plan : Plan Step} {dirty : List String}

theorem runnable_of_mem {location : Location} (member : location ∈ plan.candidateSteps dirty) :
    ∃ phase step, plan.phases[location.phase]? = some phase ∧
      phase.steps[location.step]? = some step ∧
      (step.status = .pending ∨ step.status = .prepared) ∧ step.errors = [] ∧
      step.name ∉ dirty ∧ plan.strategy.interrupted = false ∧
      phase.strategy.interrupted = false ∧ phase.name ∉ dirty := by
  obtain ⟨chosen, phase, found, phaseProceeds, step, inPhase, pending, valid, clean, _, _⟩ :=
    mem_candidateSteps_iff.mp member
  obtain ⟨proceeds, other, found', eligible, _⟩ := mem_candidates_iff.mp chosen
  rw [found] at found'
  cases found'
  exact ⟨phase, step, found, inPhase, Status.isPending_iff.mp pending, valid, clean, proceeds,
    phaseProceeds, (Element.isEligible_iff.mp eligible).2.2⟩

theorem passed_of_serial_phase {location : Location}
    (member : location ∈ plan.candidateSteps dirty) {phase : Phase Step}
    (found : plan.phases[location.phase]? = some phase) (serial : phase.strategy.kind = .serial)
    {earlier : Nat} (before : earlier < location.step) {step : Step}
    (inPhase : phase.steps[earlier]? = some step) :
    step.status = .complete ∨ step.name ∈ dirty ∨
      plan.ClaimedBefore dirty location.phase step.name := by
  obtain ⟨_, other, found', _, _, _, _, _, _, _, passed⟩ := mem_candidateSteps_iff.mp member
  rw [found] at found'
  cases found'
  exact (passed serial earlier before step inPhase).imp_left Status.isComplete_iff.mp

/-- Of two steps from one serial phase the first would block the second. -/
theorem eq_of_serial_phase {first second : Location} (inFirst : first ∈ plan.candidateSteps dirty)
    (inSecond : second ∈ plan.candidateSteps dirty) (phases : first.phase = second.phase)
    {phase : Phase Step} (found : plan.phases[first.phase]? = some phase)
    (serial : phase.strategy.kind = .serial) : first = second := by
  have unblocked : ∀ first ∈ plan.candidateSteps dirty, ∀ second ∈ plan.candidateSteps dirty,
      first.phase = second.phase → plan.phases[second.phase]? = some phase →
        ¬ first.step < second.step := by
    intro first inFirst second inSecond phases found before
    obtain ⟨_, other, found', _, step, inPhase, pending, _, clean, unclaimed, _⟩ :=
      mem_candidateSteps_iff.mp inFirst
    rw [phases, found] at found'
    cases found'
    rcases passed_of_serial_phase inSecond found serial before inPhase with done | taken | claimed
    · have status : Element.status step = .complete := done
      rw [status] at pending
      cases pending
    · exact clean taken
    · exact unclaimed (phases ▸ claimed)
  have forward := unblocked first inFirst second inSecond phases (phases ▸ found)
  have backward := unblocked second inSecond first inFirst phases.symm found
  cases first
  cases second
  simp only [Location.mk.injEq] at phases forward backward ⊢
  omega

theorem passed_of_serial_plan (serial : plan.strategy.kind = .serial) {location : Location}
    (member : location ∈ plan.candidateSteps dirty) {earlier : Nat}
    (before : earlier < location.phase) {phase : Phase Step}
    (found : plan.phases[earlier]? = some phase) :
    phase.status = .complete ∨ phase.name ∈ dirty := by
  obtain ⟨_, _, _, _, passed⟩ := mem_candidates_iff.mp (phase_of_mem_collect member)
  exact (passed serial earlier before phase found).imp_left Status.isComplete_iff.mp

theorem phase_eq_of_serial_plan (serial : plan.strategy.kind = .serial) {first second : Location}
    (inFirst : first ∈ plan.candidateSteps dirty) (inSecond : second ∈ plan.candidateSteps dirty) :
    first.phase = second.phase := by
  have unblocked : ∀ first ∈ plan.candidateSteps dirty, ∀ second ∈ plan.candidateSteps dirty,
      ¬ first.phase < second.phase := by
    intro first inFirst second inSecond before
    obtain ⟨_, phase, found, eligible, _⟩ :=
      mem_candidates_iff.mp (phase_of_mem_collect inFirst)
    refine Element.not_eligible_of_passed ?_ eligible
    exact (passed_of_serial_plan serial inSecond before found).imp_left Status.isComplete_iff.mpr
  have forward := unblocked first inFirst second inSecond
  have backward := unblocked second inSecond first inFirst
  omega

theorem handsOut_of_declared {file : ServiceFile} {built reached : Plan Step}
    (builds : ofService file = .ok built) (same : reached.declared = built)
    (dirty : List String) : reached.HandsOut dirty where
  inOrder := ⟨reached.candidateSteps_sublist dirty, reached.handedOut_sublist dirty⟩
  distinct := nodup_names_handedOut dirty fun _ _ _ _ _ => index_eq_of_name builds same
  runnable := fun _ => runnable_of_mem
  serialPhase := by
    intro location member phase found serial
    constructor
    · intro other among phases
      exact (eq_of_serial_phase member among phases.symm found serial).symm
    · intro earlier before step inPhase
      exact passed_of_serial_phase member found serial before inPhase
  serialPlan := by
    intro serial location member
    constructor
    · intro other among
      exact phase_eq_of_serial_plan serial among member
    · intro earlier before phase found
      exact passed_of_serial_plan serial member before found
  complete := by
    intro place chosen phase found parallel proceeds index step inPhase pending valid
    by_cases clean : step.name ∈ dirty
    · exact Or.inr (Or.inl clean)
    by_cases claimed : reached.ClaimedBefore dirty place step.name
    · exact Or.inr (Or.inr claimed)
    refine Or.inl (mem_candidateSteps_iff.mpr ⟨chosen, phase, found, proceeds, step, inPhase,
      pending, valid, clean, claimed, ?_⟩)
    intro serial
    rw [parallel] at serial
    cases serial

end

/-- In every state of every history a built plan hands out what it should. -/
theorem handsOut_of_history {σ : Type} {file : ServiceFile} {plan : Plan Step}
    (built : ofService file = .ok plan) (evaluator : σ) (operations : List (Operation σ))
    (dirty : List String) : (Session.run ⟨plan, evaluator⟩ operations).plan.HandsOut dirty := by
  apply handsOut_of_declared built
  rw [Session.declared_run]
  exact declared_built built

/-- Two pods whose steps share a name, under a parallel plan: the second waits for the
first, although nothing else holds it back. -/
theorem handsOut_of_namesakes :
    let service : ServiceSection := ⟨"search", none⟩
    let pods : List PodSection := [
      ⟨"index", 2, some .parallel, none, [⟨"a]-0:[b", none, none⟩]⟩,
      ⟨"index-0:[a]", 1, none, none, [⟨"b", none, none⟩]⟩]
    let file : ServiceFile := ⟨service, some ⟨some .parallel⟩, none, pods⟩
    let plan := Plan.new deployName (file.pods.map PodSection.phase) file.planStrategy
    let reached := (Session.run ⟨plan, SlotPool.withSlots 0⟩
      [.pass (SlotPool.evaluate Nat.repr) [], .restart]).plan
    reached.candidates [] = [0, 1] ∧ reached.candidateSteps [] = [⟨0, 0⟩, ⟨0, 1⟩] ∧
      reached.HandsOut [] := by
  intro service pods file plan reached
  have built : ofService file = .ok plan := rfl
  refine ⟨by decide +kernel, by decide +kernel, ?_⟩
  exact handsOut_of_history built _ _ []

end Plan

end Rollout
