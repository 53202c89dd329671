import Rollout.Plan.Pass
import Rollout.Proofs.Plan.Locations
import Rollout.Proofs.Statuses

/-! Selection: which parts a strategy hands out, and which steps a plan hands out through its
phases.  A part is handed out exactly when it is eligible and, under the serial strategy, all
parts before it are complete or taken; a phase that was chosen hands out its candidates for the
names claimed in the phases before it. -/

namespace Rollout

namespace Element

variable {α : Type} [Element α]

theorem isEligible_iff {dirty : List String} {part : α} :
    isEligible dirty part = true ↔
      (status part).isPending = true ∧ errors part = [] ∧ name part ∉ dirty := by
  simp [isEligible, isPending, hasErrors, and_assoc]

theorem isEligible_of_pending {part : α} (pending : status part = .pending)
    (valid : errors part = []) : isEligible [] part = true := by
  refine isEligible_iff.mpr ⟨?_, valid, List.not_mem_nil⟩
  rw [pending]
  rfl

theorem not_eligible_of_passed {dirty : List String} {part : α}
    (passed : isComplete part = true ∨ name part ∈ dirty) : isEligible dirty part ≠ true := by
  intro eligible
  obtain ⟨pending, _, clean⟩ := isEligible_iff.mp eligible
  rcases passed with complete | taken
  · rw [isComplete, Status.isComplete_iff] at complete
    rw [complete] at pending
    cases pending
  · exact clean taken

theorem exists_first_incomplete {parts : List α} {index : Nat} {part : α}
    (found : parts[index]? = some part) (incomplete : ¬ isComplete part = true) :
    ∃ first other, first ≤ index ∧ parts[first]? = some other ∧ ¬ isComplete other = true ∧
      ∀ earlier < first, ∀ before, parts[earlier]? = some before →
        isComplete before = true := by
  induction index using Nat.strongRecOn generalizing part with
  | ind index ih =>
      by_cases again : ∃ earlier < index, ∃ before, parts[earlier]? = some before ∧
          ¬ isComplete before = true
      · obtain ⟨earlier, smaller, before, atEarlier, open'⟩ := again
        obtain ⟨first, other, below, rest⟩ := ih earlier smaller atEarlier open'
        exact ⟨first, other, by omega, rest⟩
      · refine ⟨index, part, Nat.le_refl index, found, incomplete, ?_⟩
        intro earlier smaller before atEarlier
        apply Decidable.byContradiction
        intro open'
        exact again ⟨earlier, smaller, before, atEarlier, open'⟩

end Element

namespace StrategyKind

variable {α : Type} [Element α]

theorem mem_selectParallelFrom_iff {dirty : List String} {parts : List α} {start index : Nat} :
    index ∈ selectParallelFrom dirty start parts ↔
      ∃ offset part, index = start + offset ∧ parts[offset]? = some part ∧
        Element.isEligible dirty part = true := by
  induction parts generalizing start with
  | nil => simp [selectParallelFrom]
  | cons part rest ih =>
      have later : index ∈ selectParallelFrom dirty (start + 1) rest ↔
          ∃ offset other, index = start + (offset + 1) ∧
            (part :: rest)[offset + 1]? = some other ∧
            Element.isEligible dirty other = true := by
        rw [ih]
        simp only [List.getElem?_cons_succ, Nat.add_assoc, Nat.add_comm 1]
      rw [selectParallelFrom]
      constructor
      · intro chosen
        split at chosen
        · rename_i eligible
          rcases List.mem_cons.mp chosen with here | after
          · exact ⟨0, part, here, rfl, eligible⟩
          · obtain ⟨offset, found⟩ := later.mp after
            exact ⟨offset + 1, found⟩
        · obtain ⟨offset, found⟩ := later.mp chosen
          exact ⟨offset + 1, found⟩
      · rintro ⟨offset, found, same, atOffset, eligible⟩
        cases offset with
        | zero =>
            cases atOffset
            rw [if_pos eligible, same]
            exact List.mem_cons_self
        | succ offset =>
            have after := later.mpr ⟨offset, found, same, atOffset, eligible⟩
            split
            · exact List.mem_cons_of_mem _ after
            · exact after

theorem selectParallelFrom_ordered (dirty : List String) (start : Nat) (parts : List α) :
    (selectParallelFrom dirty start parts).Pairwise (· < ·) := by
  induction parts generalizing start with
  | nil => exact List.Pairwise.nil
  | cons part rest ih =>
      rw [selectParallelFrom]
      split
      · refine List.Pairwise.cons ?_ (ih (start + 1))
        intro index after
        obtain ⟨offset, _, same, _, _⟩ := mem_selectParallelFrom_iff.mp after
        omega
      · exact ih (start + 1)

theorem mem_selectSerialFrom_iff {dirty : List String} {parts : List α} {start index : Nat} :
    index ∈ selectSerialFrom dirty start parts ↔
      ∃ offset part, index = start + offset ∧ parts[offset]? = some part ∧
        Element.isEligible dirty part = true ∧
        ∀ earlier < offset, ∀ other, parts[earlier]? = some other →
          Element.isComplete other = true ∨ Element.name other ∈ dirty := by
  induction parts generalizing start with
  | nil => simp [selectSerialFrom]
  | cons part rest ih =>
      rw [selectSerialFrom]
      by_cases passed : (Element.isComplete part || dirty.contains (Element.name part)) = true
      · have passes : Element.isComplete part = true ∨ Element.name part ∈ dirty := by
          simpa using passed
        rw [if_pos passed, ih]
        constructor
        · rintro ⟨offset, found, same, atOffset, eligible, before⟩
          refine ⟨offset + 1, found, by omega, atOffset, eligible, ?_⟩
          intro earlier smaller other atEarlier
          cases earlier with
          | zero =>
              cases atEarlier
              exact passes
          | succ earlier => exact before earlier (by omega) other atEarlier
        · rintro ⟨offset, found, same, atOffset, eligible, before⟩
          cases offset with
          | zero =>
              cases atOffset
              exact False.elim (Element.not_eligible_of_passed passes eligible)
          | succ offset =>
              refine ⟨offset, found, by omega, atOffset, eligible, ?_⟩
              intro earlier smaller other atEarlier
              exact before (earlier + 1) (by omega) other atEarlier
      · rw [if_neg passed]
        constructor
        · intro chosen
          split at chosen
          · rename_i eligible
            refine ⟨0, part, List.mem_singleton.mp chosen, rfl, eligible, ?_⟩
            intro earlier impossible
            omega
          · cases chosen
        · rintro ⟨offset, found, same, atOffset, eligible, before⟩
          cases offset with
          | zero =>
              cases atOffset
              rw [if_pos eligible]
              exact List.mem_singleton.mpr same
          | succ offset =>
              exact False.elim (passed (by
                simpa using before 0 (by omega) part rfl))

theorem selectSerialFrom_ordered (dirty : List String) (start : Nat) (parts : List α) :
    (selectSerialFrom dirty start parts).Pairwise (· < ·) := by
  induction parts generalizing start with
  | nil => exact List.Pairwise.nil
  | cons part rest ih =>
      rw [selectSerialFrom]
      split
      · exact ih (start + 1)
      · split
        · exact List.pairwise_singleton _ _
        · exact List.Pairwise.nil

end StrategyKind

namespace Strategy

variable {α : Type} [Element α]

/-- Both strategies hand out eligible parts only; the serial one looks at the parts
before as well. -/
theorem mem_candidates_iff {strategy : Strategy} {dirty : List String} {parts : List α}
    {index : Nat} :
    index ∈ strategy.candidates dirty parts ↔
      strategy.interrupted = false ∧ ∃ part, parts[index]? = some part ∧
        Element.isEligible dirty part = true ∧
        (strategy.kind = .serial → ∀ earlier < index, ∀ other,
          parts[earlier]? = some other →
            Element.isComplete other = true ∨ Element.name other ∈ dirty) := by
  obtain ⟨kind, interrupted⟩ := strategy
  unfold candidates
  cases interrupted with
  | true => simp
  | false =>
      cases kind with
      | serial =>
          simp only [StrategyKind.select, StrategyKind.mem_selectSerialFrom_iff, Nat.zero_add,
            Bool.false_eq_true, if_false, true_and, forall_const]
          constructor
          · rintro ⟨offset, part, rfl, found⟩
            exact ⟨part, found⟩
          · rintro ⟨part, found⟩
            exact ⟨index, part, rfl, found⟩
      | parallel =>
          simp only [StrategyKind.select, StrategyKind.mem_selectParallelFrom_iff, Nat.zero_add,
            Bool.false_eq_true, if_false, true_and, reduceCtorEq, false_implies, and_true]
          constructor
          · rintro ⟨offset, part, rfl, found⟩
            exact ⟨part, found⟩
          · rintro ⟨part, found⟩
            exact ⟨index, part, rfl, found⟩

theorem candidates_ordered (strategy : Strategy) (dirty : List String) (parts : List α) :
    (strategy.candidates dirty parts).Pairwise (· < ·) := by
  unfold candidates
  split
  · exact List.Pairwise.nil
  · cases strategy.kind with
    | serial => exact StrategyKind.selectSerialFrom_ordered dirty 0 parts
    | parallel => exact StrategyKind.selectParallelFrom_ordered dirty 0 parts

end Strategy

theorem Phase.mem_candidates_iff {α : Type} [Element α] {phase : Phase α}
    {dirty : List String} {index : Nat} :
    index ∈ phase.candidates dirty ↔
      phase.strategy.interrupted = false ∧ ∃ step, phase.steps[index]? = some step ∧
        Element.isEligible dirty step = true ∧
        (phase.strategy.kind = .serial → ∀ earlier < index, ∀ other,
          phase.steps[earlier]? = some other →
            Element.isComplete other = true ∨ Element.name other ∈ dirty) :=
  Strategy.mem_candidates_iff

/-- An open phase whose open steps all wait is eligible as they are, and picks one of them. -/
theorem Phase.exists_candidate {α : Type} [Element α] {phase : Phase α}
    (proceeds : phase.strategy.interrupted = false) (valid : phase.errors = [])
    (waiting : ∀ step ∈ phase.steps, ¬ Element.isComplete step = true →
      Element.isPending step = true ∧ Element.errors step = [])
    (incomplete : ¬ Element.isComplete phase = true) :
    Element.isEligible [] phase = true ∧ ∃ index, index ∈ phase.candidates [] := by
  have unfinished : Status.ofParts (phase.steps.map Element.status) ≠ .complete :=
    fun complete => incomplete (Status.isComplete_iff.mpr complete)
  -- the status of the phase is that of one of its steps
  obtain ⟨step, member, same⟩ := List.mem_map.mp (Status.ofParts_mem unfinished)
  have still : ¬ Element.isComplete step = true := by
    intro complete
    exact unfinished (same.symm.trans (Status.isComplete_iff.mp complete))
  constructor
  · refine Element.isEligible_iff.mpr ⟨?_, valid, List.not_mem_nil⟩
    change (Status.ofParts (phase.steps.map Element.status)).isPending = true
    rw [← same]
    exact (waiting step member still).1
  · obtain ⟨index, inPhase⟩ := List.mem_iff_getElem?.mp member
    obtain ⟨first, early, _, atFirst, unready, earlier⟩ :=
      Element.exists_first_incomplete inPhase still
    obtain ⟨pending, errors⟩ := waiting early (List.mem_of_getElem? atFirst) unready
    refine ⟨first, Phase.mem_candidates_iff.mpr ⟨proceeds, early, atFirst,
      Element.isEligible_iff.mpr ⟨pending, errors, List.not_mem_nil⟩, ?_⟩⟩
    intro _ before smaller other atBefore
    exact Or.inl (earlier before smaller other atBefore)

namespace Plan

variable {α : Type} [Element α]

theorem phase_of_mem_collect {plan : Plan α} {claimed : List String} {places : List Nat}
    {location : Location} (member : location ∈ plan.collect claimed places) :
    location.phase ∈ places := by
  induction places generalizing claimed with
  | nil => cases member
  | cons place rest ih =>
      rw [collect] at member
      split at member
      · exact List.mem_cons_of_mem _ (ih member)
      · rcases List.mem_append.mp member with here | later
        · obtain ⟨step, _, rfl⟩ := List.mem_map.mp here
          exact List.mem_cons_self
        · exact List.mem_cons_of_mem _ (ih later)

def namesAt (phase : Phase α) (places : List Nat) : List String :=
  places.filterMap fun step => (phase.steps[step]?).map Element.name

theorem collect_cons_of_none {plan : Plan α} {claimed : List String} {first : Nat}
    {rest : List Nat} (absent : plan.phases[first]? = none) :
    plan.collect claimed (first :: rest) = plan.collect claimed rest := by
  rw [collect, absent]

theorem collect_cons_of_some {plan : Plan α} {claimed : List String} {first : Nat}
    {rest : List Nat} {phase : Phase α} (found : plan.phases[first]? = some phase) :
    plan.collect claimed (first :: rest) =
      (phase.candidates claimed).map (fun step => ⟨first, step⟩) ++
        plan.collect (claimed ++ namesAt phase (phase.candidates claimed)) rest := by
  rw [collect, found]
  rfl

/-- Of the first phase the candidates are handed out, and nothing else. -/
theorem mem_collect_first {plan : Plan α} {claimed : List String} {first : Nat}
    {rest : List Nat} {phase : Phase α} (found : plan.phases[first]? = some phase)
    (below : ∀ place ∈ rest, first < place) {step : Nat} :
    ⟨first, step⟩ ∈ plan.collect claimed (first :: rest) ↔ step ∈ phase.candidates claimed := by
  rw [collect_cons_of_some found, List.mem_append]
  constructor
  · intro member
    rcases member with here | later
    · obtain ⟨other, inside, same⟩ := List.mem_map.mp here
      cases same
      exact inside
    · have after := below _ (phase_of_mem_collect later)
      exact False.elim (Nat.lt_irrefl _ after)
  · intro inside
    exact Or.inl (List.mem_map.mpr ⟨step, inside, rfl⟩)

/-- Of the later phases the first one changes only which names are taken. -/
theorem mem_collect_later {plan : Plan α} {claimed : List String} {first : Nat}
    {rest : List Nat} {phase : Phase α} (found : plan.phases[first]? = some phase)
    {location : Location} (later : first < location.phase) :
    location ∈ plan.collect claimed (first :: rest) ↔
      location ∈ plan.collect (claimed ++ namesAt phase (phase.candidates claimed)) rest := by
  rw [collect_cons_of_some found, List.mem_append]
  constructor
  · intro member
    rcases member with here | after
    · obtain ⟨step, _, same⟩ := List.mem_map.mp here
      subst same
      exact False.elim (Nat.lt_irrefl _ later)
    · exact after
  · exact Or.inr

theorem mem_namesAt_iff {plan : Plan α} {place : Nat} {phase : Phase α}
    (found : plan.phases[place]? = some phase) {steps : List Nat} {name : String} :
    name ∈ namesAt phase steps ↔
      ∃ step ∈ steps, (plan.stepAt? ⟨place, step⟩).map Element.name = some name := by
  simp only [namesAt, List.mem_filterMap, stepAt?_of_phase found]

/-- What is handed out of one of the phases: its candidates, where the names of the
steps handed out of the phases before it count as taken. -/
theorem collect_at {plan : Plan α} {claimed : List String} {places : List Nat}
    (ordered : places.Pairwise (· < ·)) {place : Nat} (chosen : place ∈ places)
    {phase : Phase α} (found : plan.phases[place]? = some phase) :
    ∃ names : List String,
      (∀ name, name ∈ names ↔ ∃ location ∈ plan.collect claimed places,
        location.phase < place ∧ (plan.stepAt? location).map Element.name = some name) ∧
      ∀ step, ⟨place, step⟩ ∈ plan.collect claimed places ↔
        step ∈ phase.candidates (claimed ++ names) := by
  induction places generalizing claimed with
  | nil => cases chosen
  | cons first rest ih =>
      obtain ⟨below, ordered⟩ := List.pairwise_cons.mp ordered
      -- for the first phase no name is taken yet; for a later one, what the first handed out is
      rcases List.mem_cons.mp chosen with same | inRest
      · subst same
        refine ⟨[], ?_, ?_⟩
        · intro name
          constructor
          · intro impossible
            cases impossible
          · intro taken
            obtain ⟨location, member, before, _⟩ := taken
            rcases List.mem_cons.mp (phase_of_mem_collect member) with same | later
            · omega
            · have after := below _ later
              omega
        · intro step
          rw [List.append_nil]
          exact mem_collect_first found below
      have after := below place inRest
      cases atFirst : plan.phases[first]? with
      | none =>
          rw [collect_cons_of_none atFirst]
          exact ih ordered inRest
      | some opening =>
          obtain ⟨names, named, picks⟩ :=
            @ih (claimed ++ namesAt opening (opening.candidates claimed)) ordered inRest
          refine ⟨namesAt opening (opening.candidates claimed) ++ names, ?_, ?_⟩
          · intro name
            rw [List.mem_append, named, mem_namesAt_iff atFirst]
            constructor
            · intro taken
              rcases taken with ⟨step, inside, atStep⟩ | ⟨location, member, before, atLocation⟩
              · exact ⟨⟨first, step⟩, (mem_collect_first atFirst below).mpr inside, after, atStep⟩
              · have later := below _ (phase_of_mem_collect member)
                exact ⟨location, (mem_collect_later atFirst later).mpr member, before, atLocation⟩
            · intro taken
              obtain ⟨⟨other, step⟩, member, before, atLocation⟩ := taken
              rcases List.mem_cons.mp (phase_of_mem_collect member) with here | inside
              · cases here
                exact Or.inl ⟨step, (mem_collect_first atFirst below).mp member, atLocation⟩
              · have later := below _ inside
                exact Or.inr ⟨⟨other, step⟩, (mem_collect_later atFirst later).mp member, before,
                  atLocation⟩
          · intro step
            rw [← List.append_assoc, ← picks step]
            exact mem_collect_later atFirst after

theorem collect_ordered {plan : Plan α} {claimed : List String} {places : List Nat}
    (ordered : places.Pairwise (· < ·)) :
    (plan.collect claimed places).Pairwise Location.Before := by
  induction places generalizing claimed with
  | nil => exact List.Pairwise.nil
  | cons place rest ih =>
      obtain ⟨below, ordered⟩ := List.pairwise_cons.mp ordered
      rw [collect]
      split
      · exact ih ordered
      · rename_i phase found
        refine List.pairwise_append.mpr ⟨?_, ih ordered, ?_⟩
        · exact List.pairwise_map.mpr
            ((phase.strategy.candidates_ordered claimed phase.steps).imp
              fun smaller => Or.inr ⟨rfl, smaller⟩)
        · intro first here second later
          obtain ⟨step, _, rfl⟩ := List.mem_map.mp here
          exact Or.inl (below _ (phase_of_mem_collect later))

/-! ### The steps of a plan -/

theorem candidates_ordered (plan : Plan α) (dirty : List String) :
    (plan.candidates dirty).Pairwise (· < ·) :=
  plan.strategy.candidates_ordered dirty plan.phases

theorem mem_candidates_iff {plan : Plan α} {dirty : List String} {place : Nat} :
    place ∈ plan.candidates dirty ↔
      plan.strategy.interrupted = false ∧ ∃ phase, plan.phases[place]? = some phase ∧
        Element.isEligible dirty phase = true ∧
        (plan.strategy.kind = .serial → ∀ earlier < place, ∀ other,
          plan.phases[earlier]? = some other →
            Element.isComplete other = true ∨ Element.name other ∈ dirty) :=
  Strategy.mem_candidates_iff

theorem candidateSteps_ordered (plan : Plan α) (dirty : List String) :
    (plan.candidateSteps dirty).Pairwise Location.Before :=
  collect_ordered (plan.candidates_ordered dirty)

theorem candidateSteps_nodup (plan : Plan α) (dirty : List String) :
    (plan.candidateSteps dirty).Nodup :=
  (plan.candidateSteps_ordered dirty).imp Location.Before.ne

theorem candidateSteps_at {plan : Plan α} {dirty : List String} {place : Nat}
    (chosen : place ∈ plan.candidates dirty) {phase : Phase α}
    (found : plan.phases[place]? = some phase) :
    ∃ names : List String,
      (∀ name, name ∈ names ↔ ∃ location ∈ plan.candidateSteps dirty,
        location.phase < place ∧ (plan.stepAt? location).map Element.name = some name) ∧
      ∀ step, ⟨place, step⟩ ∈ plan.candidateSteps dirty ↔
        step ∈ phase.candidates (dirty ++ names) :=
  collect_at (plan.candidates_ordered dirty) chosen found

theorem candidateSteps_ne_nil {plan : Plan α} {dirty : List String} {place : Nat}
    (chosen : place ∈ plan.candidates dirty) {phase : Phase α}
    (found : plan.phases[place]? = some phase) {index : Nat}
    (picked : index ∈ phase.candidates dirty) : plan.candidateSteps dirty ≠ [] := by
  intro empty
  obtain ⟨names, named, picks⟩ := candidateSteps_at chosen found
  have none : names = [] := by
    apply List.eq_nil_iff_forall_not_mem.mpr
    intro name member
    obtain ⟨location, candidate, _⟩ := (named name).mp member
    rw [empty] at candidate
    cases candidate
  rw [none, List.append_nil] at picks
  have candidate := (picks index).mpr picked
  rw [empty] at candidate
  cases candidate

theorem eligible_of_mem_candidateSteps {plan : Plan α} {dirty : List String}
    {location : Location} (member : location ∈ plan.candidateSteps dirty) :
    ∃ step, plan.stepAt? location = some step ∧ Element.isEligible dirty step = true := by
  have chosen : location.phase ∈ plan.candidates dirty := phase_of_mem_collect member
  obtain ⟨_, phase, found, _, _⟩ := mem_candidates_iff.mp chosen
  obtain ⟨names, _, picks⟩ := candidateSteps_at chosen found
  obtain ⟨_, step, inside, eligible, _⟩ :=
    Phase.mem_candidates_iff.mp ((picks location.step).mp member)
  obtain ⟨pending, valid, clean⟩ := Element.isEligible_iff.mp eligible
  refine ⟨step, stepAt?_eq_some_iff.mpr ⟨phase, found, inside⟩, ?_⟩
  exact Element.isEligible_iff.mpr
    ⟨pending, valid, fun taken => clean (List.mem_append_left _ taken)⟩

theorem open_of_mem_candidateSteps {plan : Plan α} {dirty : List String} {location : Location}
    (member : location ∈ plan.candidateSteps dirty) :
    ∃ step, plan.stepAt? location = some step ∧ Element.errors step = [] ∧
      Element.status step ≠ .complete := by
  obtain ⟨step, found, eligible⟩ := eligible_of_mem_candidateSteps member
  obtain ⟨pending, valid, _⟩ := Element.isEligible_iff.mp eligible
  refine ⟨step, found, valid, ?_⟩
  intro complete
  change (Element.status step).isPending = true at pending
  rw [complete] at pending
  cases pending

end Plan

end Rollout
