import Mathlib.Data.List.Basic
import Rollout.Pod
import Rollout.Task.Suffix

/-! Task ids and the names inside them.  An id is cut at its last separator, so a suffix without
underscores gives its name back whatever the name is, and ids made with different suffixes
differ.  The names of pod instances are not escaped; what is shown about them holds because a full
name is only ever compared under one instance. -/

namespace Rollout

namespace TaskId

/-- Suffixes that can be cut off again: none empty, none with an underscore. -/
structure Legible (suffix : Nat → String) : Prop where
  nonempty : ∀ n, suffix n ≠ ""
  noUnderscore : ∀ n, '_' ∉ (suffix n).toList

/-- Suffixes as a launch needs them: all different, none empty, none with an
underscore. -/
structure Fresh (suffix : Nat → String) : Prop where
  injective : ∀ {m n : Nat}, suffix m = suffix n → m = n
  nonempty : ∀ n, suffix n ≠ ""
  noUnderscore : ∀ n, '_' ∉ (suffix n).toList

theorem splitLast_cons_eq_none {c : Char} {rest : List Char} (none : splitLast rest = none)
    (apart : c = '_' → rest.head? ≠ some '_') : splitLast (c :: rest) = Option.none := by
  unfold splitLast
  rw [none]
  simp only
  split
  · exact False.elim (apart rfl rfl)
  · rfl

theorem splitLast_eq_none {cs : List Char} (absent : '_' ∉ cs) : splitLast cs = none := by
  induction cs with
  | nil => rfl
  | cons c rest ih =>
      rw [List.mem_cons, not_or] at absent
      apply splitLast_cons_eq_none (ih absent.2)
      intro same
      exact False.elim (absent.1 same.symm)

/-- What follows the cut holds no separator and does not start inside one. -/
theorem splitLast_append {before after : List Char} (none : splitLast after = none)
    (start : after.head? ≠ some '_') :
    splitLast (before ++ '_' :: '_' :: after) = some (before, after) := by
  induction before with
  | nil =>
      have inner : splitLast ('_' :: after) = Option.none :=
        splitLast_cons_eq_none none (fun _ => start)
      rw [List.nil_append]
      unfold splitLast
      rw [inner]
      rfl
  | cons c rest ih =>
      rw [List.cons_append]
      unfold splitLast
      rw [ih]

theorem splitLast_compose {name suffix : String} (plain : '_' ∉ suffix.toList) :
    splitLast (compose name suffix).toList = some (name.toList, suffix.toList) := by
  have start : suffix.toList.head? ≠ some '_' := by
    intro first
    exact plain (List.mem_of_head? first)
  have shape : (compose name suffix).toList = name.toList ++ '_' :: '_' :: suffix.toList := by
    simp [compose, separator]
  rw [shape]
  exact splitLast_append (splitLast_eq_none plain) start

theorem taskName?_compose {name suffix : String} (named : name ≠ "") (ended : suffix ≠ "")
    (plain : '_' ∉ suffix.toList) : taskName? (compose name suffix) = some name := by
  have before : name.toList.isEmpty = false := by simpa using named
  have after : suffix.toList.isEmpty = false := by simpa using ended
  simp only [taskName?, splitLast_compose plain, before, after, Bool.or_self,
    Bool.false_eq_true, if_false, String.ofList_toList]

theorem compose_injective {name name' suffix suffix' : String} (plain : '_' ∉ suffix.toList)
    (plain' : '_' ∉ suffix'.toList) (same : compose name suffix = compose name' suffix') :
    name = name' ∧ suffix = suffix' := by
  have cut : splitLast (compose name suffix).toList = some (name.toList, suffix.toList) :=
    splitLast_compose plain
  rw [same, splitLast_compose plain'] at cut
  have parts := Prod.mk.inj (Option.some.inj cut)
  exact ⟨(String.toList_inj.mp parts.1).symm, (String.toList_inj.mp parts.2).symm⟩

theorem Legible.taskName?_eq {suffix : Nat → String} (legible : Legible suffix) {name : String}
    (named : name ≠ "") (n : Nat) : taskName? (compose name (suffix n)) = some name :=
  taskName?_compose named (legible.nonempty n) (legible.noUnderscore n)

namespace Fresh

variable {suffix : Nat → String}

theorem legible (fresh : Fresh suffix) : Legible suffix :=
  ⟨fresh.nonempty, fresh.noUnderscore⟩

/-- Under fresh suffixes an id determines the launch that made it. -/
theorem number_eq (fresh : Fresh suffix) {name name' : String} {m n : Nat}
    (same : compose name (suffix m) = compose name' (suffix n)) : m = n :=
  fresh.injective
    (compose_injective (fresh.noUnderscore m) (fresh.noUnderscore n) same).2

end Fresh

theorem fresh_repr : Fresh Nat.repr where
  injective := by
    intro m n same
    have digits := congrArg (fun text => Nat.ofDigitChars 10 text.toList 0) same
    simpa only [Nat.toList_repr, Nat.ofDigitChars_ten_toDigits] using digits
  nonempty := fun _ => Nat.repr_ne_empty
  noUnderscore := by
    intro n
    rw [Nat.toList_repr]
    exact Nat.underscore_not_in_toDigits

theorem underscore_notMem_hexDigits (number count : Nat) :
    '_' ∉ Text.hexDigits number count := by
  have digits : ∀ digit < 16, '_' ≠ Nat.digitChar digit := by decide
  induction count generalizing number with
  | zero => exact List.not_mem_nil
  | succ count ih =>
      rw [Text.hexDigits, List.mem_append, List.mem_singleton, not_or]
      exact ⟨ih _, digits _ (Nat.mod_lt number (by decide))⟩

theorem legible_suffixesFrom (start : Nat) : Legible (suffixesFrom start) where
  nonempty := by
    intro n empty
    have characters := congrArg String.toList empty
    simp [suffixesFrom, suffix] at characters
  noUnderscore := by
    intro n
    have group : ∀ before length,
        '_' ∉ ((Text.hexDigits (start + n) 32).drop before).take length := by
      intro before length member
      exact underscore_notMem_hexDigits (start + n) 32
        (List.mem_of_mem_drop (List.mem_of_mem_take member))
    have first := group 0 8
    rw [List.drop_zero] at first
    simp [suffixesFrom, suffix, first, group]

end TaskId

namespace PodInstance

theorem taskName_ne_empty (pod : PodInstance) (task : String) : pod.taskName task ≠ "" := by
  intro empty
  have characters := congrArg String.toList empty
  simp [taskName] at characters

theorem shortName?_eq_some_iff (pod : PodInstance) {fullName short : String} :
    pod.shortName? fullName = some short ↔ pod.taskName short = fullName := by
  simp only [shortName?, Option.map_eq_some_iff, List.isPrefixOf?_eq_some_iff_append_eq, taskName]
  constructor
  · intro cut
    obtain ⟨rest, joined, same⟩ := cut
    apply String.toList_inj.mp
    rw [← same]
    simpa using joined
  · intro same
    subst same
    exact ⟨short.toList, by simp, String.ofList_toList⟩

theorem shortName?_taskName (pod : PodInstance) (task : String) :
    pod.shortName? (pod.taskName task) = some task :=
  (pod.shortName?_eq_some_iff).mpr rfl

theorem task?_name {pod : PodInstance} {task : String} {spec : TaskSpec}
    (found : pod.task? task = some spec) : spec.name = task := by
  simpa using List.find?_some found

theorem task?_mem {pod : PodInstance} {task : String} {spec : TaskSpec}
    (found : pod.task? task = some spec) : spec ∈ pod.tasks :=
  List.mem_of_find?_eq_some found

theorem exists_task?_iff {pod : PodInstance} {task : String} :
    (∃ spec, pod.task? task = some spec) ↔ task ∈ pod.tasks.map (·.name) := by
  rw [← Option.isSome_iff_exists, task?, List.find?_isSome]
  simp

theorem task?_eq_none_iff {pod : PodInstance} {task : String} :
    pod.task? task = none ↔ task ∉ pod.tasks.map (·.name) := by
  rw [← exists_task?_iff, ← Option.isSome_iff_exists, Option.not_isSome_iff_eq_none]

theorem owns_iff (pod : PodInstance) {fullName : String} :
    pod.owns fullName = true ↔ ∃ spec ∈ pod.tasks, pod.taskName spec.name = fullName := by
  simp [owns]

theorem goalOf_eq_ok_iff (pod : PodInstance) {fullName : String} {goal : Goal} :
    pod.goalOf fullName = .ok goal ↔
      ∃ spec, pod.task? spec.name = some spec ∧ pod.taskName spec.name = fullName ∧
        spec.goal = goal := by
  constructor
  · intro resolved
    unfold goalOf at resolved
    split at resolved
    · rename_i spec found
      obtain ⟨short, shortened, looked⟩ := Option.bind_eq_some_iff.mp found
      have named := task?_name looked
      refine ⟨spec, by rw [named]; exact looked, ?_, Except.ok.inj resolved⟩
      rw [named]
      exact (pod.shortName?_eq_some_iff).mp shortened
    · cases resolved
  · rintro ⟨spec, looked, rfl, rfl⟩
    rw [goalOf, pod.shortName?_taskName]
    simp only [Option.bind_some, looked]

theorem owns_of_goalOf {pod : PodInstance} {fullName : String} {goal : Goal}
    (resolved : pod.goalOf fullName = .ok goal) : pod.owns fullName = true := by
  obtain ⟨spec, looked, named, _⟩ := pod.goalOf_eq_ok_iff.mp resolved
  exact pod.owns_iff.mpr ⟨spec, task?_mem looked, named⟩

end PodInstance

namespace TaskId

theorem resolve_eq_ok_iff {id : TaskId} {name : String} :
    id.resolve = .ok name ↔ taskName? id = some name := by
  unfold resolve
  cases taskName? id <;> simp

end TaskId

end Rollout
