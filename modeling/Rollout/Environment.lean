/-! Environments: texts under names, each name once.  The names keep the order in which they were
first set. -/

namespace Rollout

structure Environment where
  entries : List (String × String)
  distinct : (entries.map (·.1)).Nodup
  deriving DecidableEq, Repr

namespace Environment

def empty : Environment := ⟨[], List.nodup_nil⟩

instance : Inhabited Environment := ⟨empty⟩

/-- Sets a name in entries: in place where it is present, else at the end. -/
def setEntry (name value : String) : List (String × String) → List (String × String)
  | [] => [(name, value)]
  | (key, held) :: rest =>
      if key = name then (name, value) :: rest else (key, held) :: setEntry name value rest

theorem mem_names_setEntry {name value key : String} {entries : List (String × String)} :
    key ∈ (setEntry name value entries).map (·.1) ↔
      key = name ∨ key ∈ entries.map (·.1) := by
  induction entries with
  | nil => simp [setEntry]
  | cons head rest ih =>
      obtain ⟨first, held⟩ := head
      by_cases same : first = name
      · subst same
        simp [setEntry]
      · simp only [setEntry, if_neg same, List.map_cons, List.mem_cons, ih]
        constructor
        · rintro (atHead | atName | inRest)
          · exact Or.inr (Or.inl atHead)
          · exact Or.inl atName
          · exact Or.inr (Or.inr inRest)
        · rintro (atName | atHead | inRest)
          · exact Or.inr (Or.inl atName)
          · exact Or.inl atHead
          · exact Or.inr (Or.inr inRest)

theorem nodup_names_setEntry {name value : String} {entries : List (String × String)}
    (distinct : (entries.map (·.1)).Nodup) :
    ((setEntry name value entries).map (·.1)).Nodup := by
  induction entries with
  | nil => simp [setEntry]
  | cons head rest ih =>
      obtain ⟨first, held⟩ := head
      have headRest := List.nodup_cons.mp distinct
      by_cases same : first = name
      · subst same
        simpa [setEntry] using headRest
      · rw [setEntry, if_neg same, List.map_cons, List.nodup_cons]
        constructor
        · intro present
          rcases mem_names_setEntry.mp present with atName | inRest
          · exact same atName
          · exact headRest.1 inRest
        · exact ih headRest.2

def set (environment : Environment) (name value : String) : Environment :=
  ⟨setEntry name value environment.entries, nodup_names_setEntry environment.distinct⟩

def ofList (entries : List (String × String)) : Environment :=
  entries.foldl (fun environment entry => environment.set entry.1 entry.2) empty

def get? (environment : Environment) (name : String) : Option String :=
  environment.entries.lookup name

theorem lookup_setEntry_self {name value : String} {entries : List (String × String)} :
    (setEntry name value entries).lookup name = some value := by
  induction entries with
  | nil => simp [setEntry]
  | cons head rest ih =>
      obtain ⟨key, held⟩ := head
      by_cases same : key = name
      · subst same
        simp [setEntry]
      · rw [setEntry, if_neg same, List.lookup_cons, ih]
        have different : (name == key) = false := beq_false_of_ne (Ne.symm same)
        rw [different]

theorem lookup_setEntry_of_ne {name value wanted : String}
    {entries : List (String × String)} (different : wanted ≠ name) :
    (setEntry name value entries).lookup wanted = entries.lookup wanted := by
  induction entries with
  | nil =>
      have unequal : (wanted == name) = false := beq_false_of_ne different
      simp [setEntry, List.lookup_cons, unequal]
  | cons head rest ih =>
      obtain ⟨key, held⟩ := head
      by_cases same : key = name
      · subst same
        have unequal : (wanted == key) = false := beq_false_of_ne different
        simp [setEntry, List.lookup_cons, unequal]
      · rw [setEntry, if_neg same, List.lookup_cons, List.lookup_cons, ih]

@[simp] theorem get?_set_self (environment : Environment) (name value : String) :
    (environment.set name value).get? name = some value :=
  lookup_setEntry_self

theorem get?_set_of_ne (environment : Environment) {name value wanted : String}
    (different : wanted ≠ name) :
    (environment.set name value).get? wanted = environment.get? wanted :=
  lookup_setEntry_of_ne different

/-- This environment with the others' values put over its own. -/
def merge (environment overrides : Environment) : Environment :=
  overrides.entries.foldl (fun merged entry => merged.set entry.1 entry.2) environment

theorem lookup_eq_none_of_notMem {name : String} {entries : List (String × String)}
    (absent : name ∉ entries.map (·.1)) : entries.lookup name = none := by
  induction entries with
  | nil => rfl
  | cons head rest ih =>
      obtain ⟨key, held⟩ := head
      rw [List.map_cons, List.mem_cons, not_or] at absent
      rw [List.lookup_cons, beq_false_of_ne absent.1]
      exact ih absent.2

theorem get?_foldl_set {entries : List (String × String)} {environment : Environment}
    {wanted : String} (distinct : (entries.map (·.1)).Nodup) :
    (entries.foldl (fun merged entry => merged.set entry.1 entry.2) environment).get? wanted =
      (entries.lookup wanted).or (environment.get? wanted) := by
  induction entries generalizing environment with
  | nil => rfl
  | cons head rest ih =>
      obtain ⟨key, held⟩ := head
      have headRest := List.nodup_cons.mp distinct
      rw [List.foldl_cons, ih headRest.2, List.lookup_cons]
      by_cases same : wanted = key
      · subst same
        rw [lookup_eq_none_of_notMem headRest.1, get?_set_self, beq_self_eq_true]
        rfl
      · rw [get?_set_of_ne environment same, beq_false_of_ne same]

theorem get?_merge (environment overrides : Environment) (wanted : String) :
    (environment.merge overrides).get? wanted =
      (overrides.get? wanted).or (environment.get? wanted) :=
  get?_foldl_set overrides.distinct

end Environment

end Rollout
