import Rollout.Status

/-! The status of a whole is the least of the statuses of its parts.  The previous status decides
only where there are no parts. -/

namespace Rollout.Status

theorem aggregate_isLeast {statuses : List Status} (previous : Status)
    (nonempty : statuses ≠ []) :
    aggregate statuses previous ∈ statuses ∧
      ∀ status ∈ statuses, aggregate statuses previous ≤ status := by
  have occupied : statuses.isEmpty = false := by simpa using nonempty
  unfold aggregate
  simp only [occupied, Bool.false_eq_true, if_false, List.contains_iff_mem]
  by_cases failed : .error ∈ statuses
  · rw [if_pos failed]
    exact ⟨failed, fun status _ => by cases status <;> decide⟩
  rw [if_neg failed]
  by_cases waits : .pending ∈ statuses
  · rw [if_pos waits]
    refine ⟨waits, fun status member => ?_⟩
    cases status <;> first | decide | contradiction
  rw [if_neg waits]
  by_cases ready : .prepared ∈ statuses
  · rw [if_pos ready]
    refine ⟨ready, fun status member => ?_⟩
    cases status <;> first | decide | contradiction
  rw [if_neg ready]
  by_cases launched : .starting ∈ statuses
  · rw [if_pos launched]
    refine ⟨launched, fun status member => ?_⟩
    cases status <;> first | decide | contradiction
  rw [if_neg launched]
  -- Only completion is left, so the last rule applies and the mixture does not occur.
  have only : ∀ status ∈ statuses, status = .complete := by
    intro status member
    cases status <;> first | rfl | contradiction
  have all : statuses.all isComplete = true := by
    rw [List.all_eq_true]
    intro status member
    rw [only status member]
    rfl
  rw [if_pos all]
  obtain ⟨first, inside⟩ := List.exists_mem_of_ne_nil statuses nonempty
  refine ⟨only first inside ▸ inside, fun status member => ?_⟩
  rw [only status member]
  exact le_refl _

theorem aggregate_mem {statuses : List Status} {previous : Status}
    (nonempty : statuses ≠ []) : aggregate statuses previous ∈ statuses :=
  (aggregate_isLeast previous nonempty).1

theorem aggregate_le {statuses : List Status} {previous status : Status}
    (member : status ∈ statuses) : aggregate statuses previous ≤ status :=
  (aggregate_isLeast previous (List.ne_nil_of_mem member)).2 status member

theorem aggregate_eq_of_least {statuses : List Status} {previous status : Status}
    (member : status ∈ statuses) (least : ∀ other ∈ statuses, status ≤ other) :
    aggregate statuses previous = status :=
  le_antisymm (aggregate_le member) (least _ (aggregate_mem (List.ne_nil_of_mem member)))

theorem aggregate_previous {statuses : List Status} (nonempty : statuses ≠ [])
    (previous other : Status) : aggregate statuses previous = aggregate statuses other := by
  obtain ⟨member, least⟩ := aggregate_isLeast other nonempty
  exact aggregate_eq_of_least member least

/-- The status that the rules of aggregation give: none for no statuses, and none for a
mixture that no rule names. -/
def rule? (statuses : List Status) : Option Status :=
  if statuses.contains .error then some .error
  else if statuses.contains .pending then some .pending
  else if statuses.contains .prepared then some .prepared
  else if statuses.contains .starting then some .starting
  else if !statuses.isEmpty && statuses.all isComplete then some .complete
  else none

theorem aggregate_eq_getD_rule? (statuses : List Status) (previous : Status) :
    aggregate statuses previous = (rule? statuses).getD previous := by
  cases statuses with
  | nil => rfl
  | cons first rest =>
      simp only [aggregate, rule?, List.isEmpty_cons, Bool.not_false, Bool.true_and,
        Bool.false_eq_true, if_false]
      repeat' split
      all_goals rfl

theorem rule?_eq_aggregate {statuses : List Status} (nonempty : statuses ≠ [])
    (previous : Status) : rule? statuses = some (aggregate statuses previous) := by
  cases ruled : rule? statuses with
  | some status =>
      rw [aggregate_eq_getD_rule?, ruled]
      rfl
  | none =>
      -- without a rule the previous status would decide
      have same := aggregate_previous nonempty .error .pending
      rw [aggregate_eq_getD_rule?, aggregate_eq_getD_rule?, ruled] at same
      cases same

theorem aggregate_eq_complete_iff {statuses : List Status} {previous : Status}
    (nonempty : statuses ≠ []) :
    aggregate statuses previous = .complete ↔ ∀ status ∈ statuses, status = .complete := by
  constructor
  · intro complete status member
    have below : aggregate statuses previous ≤ status := aggregate_le member
    rw [complete] at below
    exact le_antisymm (le_complete status) below
  · intro all
    exact all _ (aggregate_mem nonempty)

theorem ofParts_eq_aggregate {statuses : List Status} (nonempty : statuses ≠ []) :
    ofParts statuses = aggregate statuses .pending := by
  have occupied : statuses.isEmpty = false := by simpa using nonempty
  rw [ofParts, occupied]
  rfl

/-- An empty whole counts as complete, so that this needs no part. -/
theorem ofParts_eq_complete_iff {statuses : List Status} :
    ofParts statuses = .complete ↔ ∀ status ∈ statuses, status = .complete := by
  by_cases empty : statuses = []
  · subst empty
    simp
  · rw [ofParts_eq_aggregate empty, aggregate_eq_complete_iff empty]

theorem le_ofParts_iff {statuses : List Status} {status : Status} :
    status ≤ ofParts statuses ↔ ∀ part ∈ statuses, status ≤ part := by
  by_cases empty : statuses = []
  · subst empty
    constructor
    · intro _ part impossible
      cases impossible
    · intro _
      exact le_complete status
  · rw [ofParts_eq_aggregate empty]
    constructor
    · intro below part member
      exact le_trans below (aggregate_le member)
    · intro below
      exact below _ (aggregate_mem empty)

theorem eq_of_forall_le_iff {a b : Status} (same : ∀ status, status ≤ a ↔ status ≤ b) : a = b :=
  le_antisymm ((same a).mp (le_refl a)) ((same b).mpr (le_refl b))

/-- A whole of wholes is the whole of all parts: an empty one among them adds nothing. -/
theorem ofParts_map_ofParts (groups : List (List Status)) :
    ofParts (groups.map ofParts) = ofParts groups.flatten := by
  apply eq_of_forall_le_iff
  intro status
  calc status ≤ ofParts (groups.map ofParts)
      ↔ ∀ group ∈ groups, status ≤ ofParts group := by
        rw [le_ofParts_iff, List.forall_mem_map]
    _ ↔ ∀ group ∈ groups, ∀ part ∈ group, status ≤ part := by
        simp only [le_ofParts_iff]
    _ ↔ status ≤ ofParts groups.flatten := by
        rw [le_ofParts_iff, List.forall_mem_flatten]

/-- Order and repetitions of the parts do not count. -/
theorem ofParts_congr {statuses others : List Status}
    (same : ∀ status, status ∈ statuses ↔ status ∈ others) :
    ofParts statuses = ofParts others := by
  apply eq_of_forall_le_iff
  intro status
  simp only [le_ofParts_iff, same]

theorem ofParts_mem {statuses : List Status} (open' : ofParts statuses ≠ .complete) :
    ofParts statuses ∈ statuses := by
  have nonempty : statuses ≠ [] := by
    intro empty
    exact open' (by rw [empty, ofParts_nil])
  rw [ofParts_eq_aggregate nonempty]
  exact aggregate_mem nonempty

theorem error_le (a : Status) : .error ≤ a := by
  cases a <;> decide

theorem ofParts_eq_error_iff {statuses : List Status} :
    ofParts statuses = .error ↔ .error ∈ statuses := by
  constructor
  · intro failed
    have open' : ofParts statuses ≠ .complete := by
      rw [failed]
      decide
    exact failed ▸ ofParts_mem open'
  · intro member
    rw [ofParts_eq_aggregate (List.ne_nil_of_mem member)]
    exact le_antisymm (aggregate_le member) (error_le _)

theorem isPending_iff {status : Status} :
    status.isPending = true ↔ status = .pending ∨ status = .prepared := by
  cases status <;> simp [isPending]

theorem isComplete_iff {status : Status} : status.isComplete = true ↔ status = .complete := by
  simp [isComplete]

end Rollout.Status
