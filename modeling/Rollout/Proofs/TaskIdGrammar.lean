import Rollout.Proofs.TaskIds

/-! Which texts are task ids.  A text is one exactly when it has a name, a separator and a suffix
in this order, and the suffix neither holds a separator nor begins inside one; there is at most
one way to take a text apart like this, however many underscores stand in a row.  So an id gives
back the name that it was made from, and through an instance the goal of the task of that name. -/

namespace Rollout

namespace TaskId

/-! ### The last separator -/

theorem splitLast_cons_eq_none_iff {c : Char} {rest : List Char} :
    splitLast (c :: rest) = none ↔
      splitLast rest = none ∧ (c = '_' → rest.head? ≠ some '_') := by
  constructor
  · intro uncut
    unfold splitLast at uncut
    split at uncut
    · cases uncut
    · rename_i none
      refine ⟨none, ?_⟩
      rintro rfl second
      obtain ⟨after, rfl⟩ := List.head?_eq_some_iff.mp second
      cases uncut
  · rintro ⟨none, apart⟩
    exact splitLast_cons_eq_none none apart

/-- Induction on the text: a cut further back is kept, and where there is none the text has to
begin with the separator itself. -/
theorem splitLast_eq_some_iff {cs before after : List Char} :
    splitLast cs = some (before, after) ↔
      cs = before ++ '_' :: '_' :: after ∧ splitLast after = none ∧ after.head? ≠ some '_' := by
  constructor
  · intro cut
    induction cs generalizing before with
    | nil => cases cut
    | cons c rest ih =>
        unfold splitLast at cut
        split at cut
        · rename_i front back further
          cases cut
          obtain ⟨shape, last⟩ := ih further
          exact ⟨by rw [shape, List.cons_append], last⟩
        · rename_i none
          split at cut
          · cases cut
            obtain ⟨later, apart⟩ := splitLast_cons_eq_none_iff.mp none
            exact ⟨rfl, later, apart rfl⟩
          · cases cut
  · rintro ⟨rfl, none, start⟩
    exact splitLast_append none start

theorem splitLast_eq_none_iff {cs : List Char} :
    splitLast cs = none ↔ ∀ before after, cs ≠ before ++ '_' :: '_' :: after := by
  constructor
  · intro uncut before after same
    subst same
    induction before with
    | nil => exact (splitLast_cons_eq_none_iff.mp uncut).2 rfl rfl
    | cons c rest ih => exact ih (splitLast_cons_eq_none_iff.mp uncut).1
  · intro whole
    cases cut : splitLast cs with
    | none => rfl
    | some parts => exact absurd (splitLast_eq_some_iff.mp cut).1 (whole parts.1 parts.2)

/-! ### Texts that are ids -/

structure Cut (id : TaskId) (name suffix : String) : Prop where
  joined : id = name ++ "__" ++ suffix
  named : name ≠ ""
  ended : suffix ≠ ""
  whole : ∀ before after, suffix ≠ before ++ "__" ++ after
  start : ∀ rest, suffix ≠ "_" ++ rest

variable {id : TaskId} {name suffix : String}

theorem whole_iff :
    (∀ before after, suffix ≠ before ++ "__" ++ after) ↔ splitLast suffix.toList = none := by
  rw [splitLast_eq_none_iff]
  constructor
  · intro whole before after same
    apply whole (String.ofList before) (String.ofList after)
    apply String.toList_inj.mp
    simpa using same
  · intro whole before after same
    apply whole before.toList after.toList
    simpa using congrArg String.toList same

theorem start_iff : (∀ rest, suffix ≠ "_" ++ rest) ↔ suffix.toList.head? ≠ some '_' := by
  constructor
  · intro start first
    obtain ⟨rest, same⟩ := List.head?_eq_some_iff.mp first
    apply start (String.ofList rest)
    apply String.toList_inj.mp
    simpa using same
  · rintro start rest rfl
    apply start
    simp

theorem cut_iff :
    id.Cut name suffix ↔
      splitLast id.toList = some (name.toList, suffix.toList) ∧ name ≠ "" ∧ suffix ≠ "" := by
  have joined : id = name ++ "__" ++ suffix ↔
      id.toList = name.toList ++ '_' :: '_' :: suffix.toList := by
    rw [← String.toList_inj]
    simp
  rw [splitLast_eq_some_iff, ← joined, ← whole_iff, ← start_iff]
  constructor
  · intro cut
    exact ⟨⟨cut.joined, cut.whole, cut.start⟩, cut.named, cut.ended⟩
  · rintro ⟨⟨joined, whole, start⟩, named, ended⟩
    exact ⟨joined, named, ended, whole, start⟩

theorem taskName?_eq_some_iff : taskName? id = some name ↔ ∃ suffix, id.Cut name suffix := by
  unfold taskName?
  constructor
  · intro found
    split at found
    · rename_i before after cut
      split at found
      · cases found
      · rename_i occupied
        cases found
        rw [Bool.or_eq_true, not_or, List.isEmpty_iff, List.isEmpty_iff] at occupied
        refine ⟨String.ofList after, cut_iff.mpr ⟨by simpa using cut, ?_, ?_⟩⟩
        · simpa using occupied.1
        · simpa using occupied.2
    · cases found
  · rintro ⟨suffix, cut⟩
    obtain ⟨split, named, ended⟩ := cut_iff.mp cut
    have before : name.toList.isEmpty = false := by simpa using named
    have after : suffix.toList.isEmpty = false := by simpa using ended
    simp only [split, before, after, Bool.or_self, Bool.false_eq_true, if_false,
      String.ofList_toList]

structure Resolves (id : TaskId) : Prop where
  accepts : ∀ name, id.resolve = .ok name ↔ ∃ suffix, id.Cut name suffix
  unique : ∀ name suffix name' suffix', id.Cut name suffix → id.Cut name' suffix' →
    name = name' ∧ suffix = suffix'
  refuses : id.resolve = .error (.malformedId id) ↔ ∀ name suffix, ¬ id.Cut name suffix

theorem resolves (id : TaskId) : id.Resolves where
  accepts := fun _ => resolve_eq_ok_iff.trans taskName?_eq_some_iff
  unique := by
    intro name suffix name' suffix' cut cut'
    have same := (cut_iff.mp cut).1.symm.trans (cut_iff.mp cut').1
    obtain ⟨names, suffixes⟩ := Prod.mk.inj (Option.some.inj same)
    exact ⟨String.toList_inj.mp names, String.toList_inj.mp suffixes⟩
  refuses := by
    have none : id.resolve = .error (.malformedId id) ↔ taskName? id = Option.none := by
      unfold resolve
      cases taskName? id <;> simp
    rw [none, Option.eq_none_iff_forall_ne_some]
    simp only [ne_eq, taskName?_eq_some_iff, not_exists]

/-! ### Ids under a suffix -/

/-- A suffix under which ids lead back to what they were made from. -/
structure LeadsBack (suffix : String) : Prop where
  names : ∀ name, name ≠ "" → (compose name suffix).resolve = .ok name
  /-- Of tasks that share a name the first one counts. -/
  goals : ∀ (pod : PodInstance), ∀ task ∈ pod.tasks, ∃ before first after,
    pod.tasks = before ++ first :: after ∧ first.name = task.name ∧
      (∀ earlier ∈ before, earlier.name ≠ task.name) ∧
      (compose (pod.taskName task.name) suffix).resolve.bind pod.goalOf = .ok first.goal

end TaskId

theorem PodInstance.task?_eq_some_iff {pod : PodInstance} {name : String} {spec : TaskSpec} :
    pod.task? name = some spec ↔ spec.name = name ∧ ∃ before after,
      pod.tasks = before ++ spec :: after ∧ ∀ earlier ∈ before, earlier.name ≠ name := by
  rw [task?, List.find?_eq_some_iff_append]
  simp

namespace TaskId

theorem leadsBack {suffix : String} (ended : suffix ≠ "") (plain : '_' ∉ suffix.toList) :
    LeadsBack suffix where
  names := fun _ named => resolve_eq_ok_iff.mpr (taskName?_compose named ended plain)
  goals := by
    intro pod task member
    obtain ⟨first, found⟩ := PodInstance.exists_task?_iff.mpr (List.mem_map_of_mem member)
    obtain ⟨named, before, after, shape, earlier⟩ := PodInstance.task?_eq_some_iff.mp found
    have resolved : (compose (pod.taskName task.name) suffix).resolve =
        .ok (pod.taskName task.name) :=
      resolve_eq_ok_iff.mpr (taskName?_compose (pod.taskName_ne_empty task.name) ended plain)
    have goal : pod.goalOf (pod.taskName task.name) = .ok first.goal :=
      pod.goalOf_eq_ok_iff.mpr ⟨first, by rwa [named], by rw [named], rfl⟩
    exact ⟨before, first, after, shape, named, earlier, by rw [resolved]; exact goal⟩

/-- Every text is resolved by the grammar of ids, and an id leads back to its name and to its
goal if its suffix has something in it but no underscore. -/
theorem resolves_by_grammar :
    (∀ id : TaskId, id.Resolves) ∧
      ∀ suffix : String, suffix ≠ "" → '_' ∉ suffix.toList → LeadsBack suffix :=
  ⟨resolves, fun _ => leadsBack⟩

/-- A name that ends in a separator, and a text that has nothing after the last one. -/
theorem resolves_rows_of_underscores :
    ("7" ≠ "" ∧ '_' ∉ "7".toList ∧ LeadsBack "7") ∧
      resolve "a____7" = .ok "a__" ∧ resolve "a____" = .error (.malformedId "a____") := by
  have leads : LeadsBack "7" := resolves_by_grammar.2 "7" (by decide) (by decide)
  refine ⟨⟨by decide, by decide, leads⟩, leads.names "a__" (by decide), ?_⟩
  rw [(resolves_by_grammar.1 "a____").refuses]
  intro name suffix cut
  have accepted := ((resolves_by_grammar.1 "a____").accepts name).mpr ⟨suffix, cut⟩
  cases accepted

end TaskId

end Rollout
