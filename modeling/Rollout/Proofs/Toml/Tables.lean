import Rollout.Proofs.Toml.Lines

/-! The document that the statements of a written text define.  In such a text the plain values of
a table stand first, and each of its inner tables follows in one piece.  So an inner table is
built as if it were a text of its own, and joins its parent as the last entry. -/

namespace Rollout.Toml

/-! ### Entries -/

namespace Entries

theorem find?_append {entries more : Entries} {key : String}
    (absent : find? entries key = none) : find? (entries ++ more) key = find? more key := by
  rw [find?, List.lookup_append, show entries.lookup key = none from absent]
  rfl

theorem find?_eq_none_iff {entries : Entries} {key : String} :
    find? entries key = none ↔ ∀ entry ∈ entries, entry.1 ≠ key := by
  simp only [find?, List.lookup_eq_none_iff, bne_iff_ne, ne_comm]

theorem find?_add_self {entries : Entries} {key : String} {node : Node}
    (absent : find? entries key = none) : find? (add entries key node) key = some node := by
  rw [add, find?_append absent]
  simp [find?]

theorem replace_add {entries : Entries} {key : String} {old new : Node}
    (absent : find? entries key = none) :
    replace (add entries key old) key new = add entries key new := by
  have others : ∀ entry ∈ entries, (if entry.1 = key then (key, new) else entry) = entry :=
    fun entry member => if_neg (find?_eq_none_iff.mp absent entry member)
  rw [replace, add, List.map_append, List.map_congr_left others, List.map_id', List.map_cons,
    if_pos rfl, List.map_nil, add]

theorem splitKey_cons {path parents : List String} {last : String}
    (split : splitKey path = some (parents, last)) (key : String) :
    splitKey (key :: path) = some (key :: parents, last) := by
  cases path with
  | nil => cases split
  | cons part path => rw [splitKey.eq_3 key _ (List.cons_ne_nil part path), split, Option.map_some]

theorem documentsOfEntries_eq (entries : Entries) :
    documentsOfEntries entries = entries.map fun entry => (entry.1, entry.2.toDocument) := by
  induction entries with
  | nil => rfl
  | cons entry rest ih => rw [documentsOfEntries, ih, List.map_cons]

theorem documentsOfTables_eq (tables : List Entries) (following : List Document) :
    documentsOfTables tables following =
      tables.reverse.map (fun table => .table (documentsOfEntries table)) ++ following := by
  induction tables generalizing following with
  | nil => rfl
  | cons table rest ih =>
      rw [documentsOfTables, ih, List.reverse_cons, List.map_append, List.append_assoc]
      rfl

/-- The nodes that take the lines after a header: a table with a header of its own, or the
last one of a list of tables. -/
inductive Opened : (Entries → Node) → Prop where
  | table : Opened (Node.table .declared)
  | last (earlier : List Entries) : Opened fun entries => Node.tables entries earlier

theorem descend_add {hold : Entries → Node} (opened : Opened hold) {front : Entries}
    {key : String} (absent : find? front key = none) (here : Origin) (path : List String)
    (change : Origin → Entries → Option Entries) (inner : Entries) :
    descend .implied change here (key :: path) (add front key (hold inner)) =
      (descend .implied change .declared path inner).map fun changed =>
        add front key (hold changed) := by
  cases opened with
  | table =>
      simp only [descend, find?_add_self absent, replace_add absent, reduceCtorEq, false_and,
        if_false]
      cases descend .implied change .declared path inner with
      | none => rfl
      | some changed => rfl
  | last earlier =>
      simp only [descend, find?_add_self absent, replace_add absent]
      cases descend .implied change .declared path inner with
      | none => rfl
      | some changed => rfl

end Entries

/-! ### Statements inside a table -/

namespace Statement

/-- A statement of an inner table as it stands in the text of the outer one. -/
def under (key : String) : Statement → Statement
  | .assign part value => .assign part value
  | .header path => .header (key :: path)
  | .item path => .item (key :: path)

def assigns (values : List (String × Document)) : List Statement :=
  values.map fun value => .assign [value.1] value.2

def table (key : String) (body : List Statement) : List Statement :=
  .header [key] :: body.map (under key)

def entry (key : String) (body : List Statement) : List Statement :=
  .item [key] :: body.map (under key)

end Statement

namespace Building

open Entries Statement

def run (building : Building) (statements : List Statement) : Option Building :=
  statements.foldlM apply building

theorem run_append (building : Building) (first second : List Statement) :
    building.run (first ++ second) = (building.run first).bind (·.run second) :=
  List.foldlM_append

theorem run_cons (building : Building) (statement : Statement) (rest : List Statement) :
    building.run (statement :: rest) = (building.apply statement).bind (·.run rest) :=
  List.foldlM_cons

def inside (front : Entries) (key : String) (hold : Entries → Node) (building : Building) :
    Building :=
  ⟨add front key (hold building.root), key :: building.current⟩

section

variable {front : Entries} {key : String} {hold : Entries → Node} (opened : Opened hold)
  (absent : find? front key = none)

include opened absent

theorem openHeader_inside {declare : String → Origin → Entries → Option Entries}
    {entries changed : Entries} {path : List String}
    (declared : openHeader declare entries path = some changed) :
    openHeader declare (add front key (hold entries)) (key :: path) =
      some (add front key (hold changed)) := by
  obtain ⟨⟨parents, last⟩, split, declared⟩ := Option.bind_eq_some_iff.mp declared
  simp only [openHeader, splitKey_cons split, Option.bind_eq_bind, Option.bind_some,
    descend_add opened absent]
  exact congrArg (Option.map _) declared

/-- A statement does to an inner table what it does to a table that is a text of its own. -/
theorem apply_inside {building after : Building} {statement : Statement}
    (applied : building.apply statement = some after) :
    (building.inside front key hold).apply (statement.under key) =
      some (after.inside front key hold) := by
  cases statement with
  | assign part value =>
      obtain ⟨root, assigned, made⟩ := Option.bind_eq_some_iff.mp applied
      cases made
      have passed := descend_add opened absent .declared building.current
        (fun _ inner => assign inner part value) building.root
      rw [show descend .implied (fun _ inner => assign inner part value) .declared
        building.current building.root = some root from assigned] at passed
      exact congrArg (Option.bind · _) passed
  | header path =>
      obtain ⟨root, declared, made⟩ := Option.bind_eq_some_iff.mp applied
      cases made
      exact congrArg (Option.bind · _) (openHeader_inside opened absent declared)
  | item path =>
      obtain ⟨root, declared, made⟩ := Option.bind_eq_some_iff.mp applied
      cases made
      exact congrArg (Option.bind · _) (openHeader_inside opened absent declared)

theorem run_inside {building after : Building} {statements : List Statement}
    (ran : building.run statements = some after) :
    (building.inside front key hold).run (statements.map (under key)) =
      some (after.inside front key hold) := by
  induction statements generalizing building with
  | nil =>
      cases ran
      rfl
  | cons statement rest ih =>
      rw [run_cons] at ran
      obtain ⟨next, applied, ran⟩ := Option.bind_eq_some_iff.mp ran
      rw [List.map_cons, run_cons, apply_inside opened absent applied, Option.bind_some]
      exact ih ran

end

theorem apply_header {root : Entries} {key : String} (absent : find? root key = none)
    (current : List String) :
    apply ⟨root, current⟩ (.header [key]) = some (start.inside root key (.table .declared)) := by
  show (declareTable key .declared root).bind _ = _
  rw [declareTable, absent]
  rfl

theorem apply_assign {root : Entries} {key : String} (absent : find? root key = none)
    (value : Document) :
    apply ⟨root, []⟩ (.assign [key] value) = some ⟨add root key (.value value), []⟩ := by
  show (insertNew false key value .declared root).bind _ = _
  rw [insertNew, absent]
  rfl

theorem run_assigns {root : Entries} {values : List (String × Document)}
    (absent : ∀ value ∈ values, find? root value.1 = none)
    (distinct : (values.map (·.1)).Nodup) :
    run ⟨root, []⟩ (assigns values) =
      some ⟨root ++ values.map fun value => (value.1, .value value.2), []⟩ := by
  induction values generalizing root with
  | nil => exact congrArg (fun entries => some (Building.mk entries [])) (List.append_nil root).symm
  | cons value rest ih =>
      obtain ⟨new, others⟩ := List.nodup_cons.mp distinct
      have absentRest : ∀ other ∈ rest,
          find? (add root value.1 (.value value.2)) other.1 = none := by
        intro other member
        rw [add, find?_append (absent other (List.mem_cons_of_mem value member)),
          find?_eq_none_iff]
        intro entry only
        rw [List.mem_singleton.mp only]
        intro same
        exact new (List.mem_map.mpr ⟨other, member, same.symm⟩)
      rw [assigns, List.map_cons, run_cons, apply_assign (absent value List.mem_cons_self),
        Option.bind_some, ← assigns, ih absentRest others, add, List.append_assoc]
      rfl

/-- Entries with a list of tables, of which the last one comes first; without any tables
there is no list. -/
def listed (root : Entries) (key : String) : List Entries → Entries
  | [] => root
  | last :: earlier => add root key (.tables last earlier)

theorem apply_item {root : Entries} {key : String} (absent : find? root key = none)
    (tables : List Entries) (current : List String) :
    apply ⟨listed root key tables, current⟩ (.item [key]) =
      some (start.inside root key (.tables · tables)) := by
  show (declareItem key .declared (listed root key tables)).bind _ = _
  cases tables with
  | nil =>
      rw [listed, declareItem, absent]
      rfl
  | cons last earlier =>
      rw [listed, declareItem, find?_add_self absent]
      simp only [replace_add absent]
      rfl

theorem run_entry {root : Entries} {key : String} (absent : find? root key = none)
    (tables : List Entries) (current : List String) {body : List Statement} {after : Building}
    (ran : start.run body = some after) :
    run ⟨listed root key tables, current⟩ (entry key body) =
      some ⟨listed root key (after.root :: tables), key :: after.current⟩ := by
  rw [entry, run_cons, apply_item absent, Option.bind_some,
    run_inside (.last tables) absent ran]
  rfl

end Building

/-! ### What statements define -/

open Entries Statement

/-- As a text of their own, the statements define these entries. -/
def Defines (statements : List Statement) (entries : List (String × Document)) : Prop :=
  ∃ root current, Building.start.run statements = some ⟨root, current⟩ ∧
    documentsOfEntries root = entries

/-- Wherever the keys are new, the statements add these entries at the end. -/
def Appends (statements : List Statement) (entries : List (String × Document)) : Prop :=
  ∀ root current, (∀ entry ∈ entries, find? root entry.1 = none) → ∃ added last,
    Building.run ⟨root, current⟩ statements = some ⟨root ++ added, last⟩ ∧
      documentsOfEntries added = entries

def Apart (first second : List (String × Document)) : Prop :=
  ∀ entry ∈ first, ∀ other ∈ second, entry.1 ≠ other.1

theorem Apart.find?_append {first second : List (String × Document)} (apart : Apart first second)
    {root added : Entries} (adds : documentsOfEntries added = first)
    (absent : ∀ entry ∈ second, find? root entry.1 = none) :
    ∀ entry ∈ second, find? (root ++ added) entry.1 = none := by
  intro other member
  rw [Entries.find?_append (absent other member), find?_eq_none_iff]
  intro entry present
  refine apart (entry.1, entry.2.toDocument) ?_ other member
  rw [← adds, documentsOfEntries_eq]
  exact List.mem_map_of_mem present

theorem build?_of_defines {statements : List Statement} {entries : List (String × Document)}
    (defines : Defines statements entries) : build? statements = some (.table entries) := by
  obtain ⟨root, current, ran, rfl⟩ := defines
  exact congrArg (Option.bind · _) ran

namespace Appends

theorem nil : Appends [] [] :=
  fun root current _ => ⟨[], current, by rw [List.append_nil]; rfl, rfl⟩

theorem append {first second : List Statement} {entries more : List (String × Document)}
    (before : Appends first entries) (after : Appends second more) (apart : Apart entries more) :
    Appends (first ++ second) (entries ++ more) := by
  intro root current absent
  obtain ⟨added, last, ran, adds⟩ :=
    before root current fun entry member => absent entry (List.mem_append_left more member)
  obtain ⟨extra, final, extended, gives⟩ := after (root ++ added) last
    (apart.find?_append adds fun entry member => absent entry (List.mem_append_right _ member))
  refine ⟨added ++ extra, final, ?_, ?_⟩
  · rw [Building.run_append, ran, Option.bind_some, extended, List.append_assoc]
  · rw [documentsOfEntries_eq, List.map_append, ← documentsOfEntries_eq,
      ← documentsOfEntries_eq, adds, gives]

end Appends

namespace Defines

theorem assigns {values : List (String × Document)} (distinct : (values.map (·.1)).Nodup) :
    Defines (Statement.assigns values) values := by
  refine ⟨_, [], Building.run_assigns (fun _ _ => rfl) distinct, ?_⟩
  rw [documentsOfEntries_eq, List.nil_append, List.map_map]
  exact List.map_id' values

theorem append {first second : List Statement} {entries more : List (String × Document)}
    (before : Defines first entries) (after : Appends second more) (apart : Apart entries more) :
    Defines (first ++ second) (entries ++ more) := by
  obtain ⟨root, current, ran, defines⟩ := before
  have absent : ∀ entry ∈ more, find? ([] ++ root) entry.1 = none :=
    apart.find?_append defines fun _ _ => rfl
  obtain ⟨added, last, extended, gives⟩ := after root current absent
  refine ⟨root ++ added, last, ?_, ?_⟩
  · rw [Building.run_append, ran, Option.bind_some, extended]
  · rw [documentsOfEntries_eq, List.map_append, ← documentsOfEntries_eq,
      ← documentsOfEntries_eq, defines, gives]

theorem table {body : List Statement} {entries : List (String × Document)}
    (defines : Defines body entries) (key : String) :
    Appends (Statement.table key body) [(key, .table entries)] := by
  obtain ⟨inner, last, ran, rfl⟩ := defines
  intro root current absent
  have new : find? root key = none := absent _ List.mem_cons_self
  refine ⟨[(key, .table .declared inner)], key :: last, ?_, rfl⟩
  rw [Statement.table, Building.run_cons, Building.apply_header new, Option.bind_some,
    Building.run_inside .table new ran]
  rfl

theorem run_entries {α : Type} {items : List α} {body : α → List Statement}
    {content : α → List (String × Document)}
    (defines : ∀ item ∈ items, Defines (body item) (content item)) {root : Entries} {key : String}
    (absent : find? root key = none) (done : List Entries) (current : List String) :
    ∃ tables last,
      Building.run ⟨Building.listed root key done, current⟩
        (items.flatMap fun item => entry key (body item)) =
          some ⟨Building.listed root key (tables ++ done), last⟩ ∧
      tables.reverse.map documentsOfEntries = items.map content := by
  induction items generalizing done current with
  | nil => exact ⟨[], current, rfl, rfl⟩
  | cons item rest ih =>
      obtain ⟨table, _, ran, first⟩ := defines item List.mem_cons_self
      obtain ⟨tables, last, others, contents⟩ :=
        ih (fun other member => defines other (List.mem_cons_of_mem item member))
          (table :: done) (key :: _)
      refine ⟨tables ++ [table], last, ?_, ?_⟩
      · rw [List.flatMap_cons, Building.run_append, Building.run_entry absent done current ran,
          Option.bind_some, others, List.append_assoc]
        rfl
      · rw [List.reverse_append, List.map_append, contents, List.map_cons, ← first]
        rfl

theorem entries {α : Type} {items : List α} {body : α → List Statement}
    {content : α → List (String × Document)} (nonempty : items ≠ [])
    (defines : ∀ item ∈ items, Defines (body item) (content item)) (key : String) :
    Appends (items.flatMap fun item => entry key (body item))
      [(key, .tables (items.map fun item => .table (content item)))] := by
  intro root current absent
  have new : find? root key = none := absent _ List.mem_cons_self
  obtain ⟨tables, last, ran, contents⟩ := run_entries defines new [] current
  rw [List.append_nil] at ran
  cases tables with
  | nil => exact absurd (List.map_eq_nil_iff.mp contents.symm) nonempty
  | cons latest earlier =>
      refine ⟨[(key, .tables latest earlier)], last, ran, ?_⟩
      have documents := congrArg (List.map Document.table) contents
      rw [List.map_map, List.map_map, List.reverse_cons, List.map_append] at documents
      rw [documentsOfEntries, Node.toDocument, documentsOfTables_eq]
      exact congrArg (fun items => [(key, Document.tables items)]) documents

end Defines

end Rollout.Toml
