import Rollout.Codec.Snapshot
import Rollout.Proofs.Json.Nesting
import Rollout.Proofs.Json.Steady

/-! A snapshot is read back from its document.  What a node leaves out is what its reader takes
for a field that is missing, and a document is nested at least as deeply as the tree. -/

namespace Rollout

open Document (findKey? get?)
open Json (Writable)

theorem Status.read_label (dialect : Dialect) (status : Status) :
    Status.read dialect (.text status.label) = .ok status := by
  cases status
  all_goals rfl

/-! ### Tasks -/

namespace TaskSnapshot

def content (task : TaskSnapshot) : List (String × Document) := [
  ("name", .text task.name),
  ("task_id", .text task.taskId),
  ("status", task.status.toDocument)]

theorem writable_toDocument (task : TaskSnapshot) : Writable task.toDocument := by
  refine .table (by simp) ?_
  simp only [List.forall_mem_cons]
  exact ⟨.text _, .text _, .text _, nofun⟩

theorem read_toDocument (dialect : Dialect) (task : TaskSnapshot) :
    read dialect task.toDocument = .ok task := by
  have name : Fields.required ⟨shape, .named task.content⟩ "name" Reader.text =
      .done task.name := Fields.required_eq [] (by simp) rfl
  have taskId : Fields.required ⟨shape, .named task.content⟩ "task_id" Reader.text =
      .done task.taskId := Fields.required_eq [_] (by simp) rfl
  have status : Fields.required ⟨shape, .named task.content⟩ "status" (Status.read dialect) =
      .done task.status := Fields.required_eq [_, _] (by simp) (Status.read_label dialect _)
  have written : task.toDocument = .table task.content := rfl
  rw [read, written, Dialect.record_table, name, taskId, status]
  rfl

theorem steady_read (dialect : Dialect) : (read dialect).Steady := by
  have name := Fields.steady_required "name" Reader.steady_text
  have taskId := Fields.steady_required "task_id" Reader.steady_text
  have status := Fields.steady_required "status" (Reader.steady_oneOf dialect Status.choices)
  exact Reader.steady_record dialect shape (((name.map mk).seq taskId).seq status)

end TaskSnapshot

/-! ### Nodes -/

namespace Snapshot

/-- What holds of a node when it holds of its children, holds of every tree. -/
theorem nodeInduction {motive : Snapshot → Prop}
    (atNode : ∀ name status strategy errors children tasks, (∀ child ∈ children, motive child) →
      motive (.node name status strategy errors children tasks)) :
    ∀ snapshot, motive snapshot
  | .node name status strategy errors children tasks =>
      atNode name status strategy errors children tasks fun child member =>
        have smaller : sizeOf child <
            sizeOf (Snapshot.node name status strategy errors children tasks) := by
          have inside := List.sizeOf_lt_of_mem member
          rw [Snapshot.node.sizeOf_spec]
          omega
        nodeInduction atNode child
termination_by snapshot => sizeOf snapshot

theorem toDocuments_eq_map (children : List Snapshot) :
    toDocuments children = children.map toDocument := by
  induction children with
  | nil => rfl
  | cons child rest ih => rw [toDocuments, ih, List.map_cons]

@[simp] theorem without_listEntry {key other : String} (different : other ≠ key)
    (items : List Document) : Without key (listEntry other items) := by
  cases items
  · exact without_nil key
  · exact without_cons.mpr ⟨different, without_nil key⟩

theorem forall_mem_listEntry {p : Document → Prop} {items : List Document}
    (list : items ≠ [] → p (.list items)) (key : String) :
    ∀ entry ∈ listEntry key items, p entry.2 := by
  cases items with
  | nil => exact nofun
  | cons item rest => exact List.forall_mem_singleton.mpr (list (List.cons_ne_nil item rest))

theorem withDefault_listEntry {α : Type} {shape : RecordShape} {key : String}
    {front rest : List (String × Document)} (before : Without key front) (after : Without key rest)
    {read : Reader α} {items : List Document} {values : List α}
    (rereads : items.mapM read = .ok values) :
    Fields.withDefault ⟨shape, .named (front ++ listEntry key items ++ rest)⟩ key []
      (Reader.listOf read) = .done values := by
  cases items with
  | nil =>
      cases rereads
      have missing : findKey? key (front ++ listEntry key [] ++ rest) = none :=
        findKey?_eq_none (by simp [listEntry, before, after])
      rw [Fields.withDefault, Fields.find?_named, missing]
      rfl
  | cons item others =>
      have written : listEntry key (item :: others) = [(key, .list (item :: others))] := rfl
      rw [written, List.append_assoc, List.singleton_append]
      exact Fields.withDefault_eq front before rereads

section

variable (name : String) (status : Status) (strategy : Option StrategyKind) (errors : List String)
  (children : List Snapshot) (tasks : List TaskSnapshot)

/-- The entries of a node: without a strategy that is absent, and without empty lists. -/
def content : List (String × Document) :=
  [("name", .text name), ("status", status.toDocument)] ++
    optionalEntry "strategy" StrategyKind.toDocument strategy ++
    listEntry "errors" (errors.map .text) ++
    listEntry "children" (children.map toDocument) ++
    listEntry "tasks" (tasks.map TaskSnapshot.toDocument)

theorem toDocument_node :
    (node name status strategy errors children tasks).toDocument =
      .table (content name status strategy errors children tasks) := by
  rw [toDocument, toDocuments_eq_map, content]
  cases strategy
  · rfl
  · rfl

def fills : Snapshot → String → Bool
  | .node _ _ strategy _ _ _, "strategy" => strategy.isSome
  | .node _ _ _ errors _ _, "errors" => !errors.isEmpty
  | .node _ _ _ _ children _, "children" => !children.isEmpty
  | .node _ _ _ _ _ tasks, "tasks" => !tasks.isEmpty
  | _, _ => true

/-- The keys of a node are the fields with something in them, in declared order. -/
theorem keys_content :
    (content name status strategy errors children tasks).map (·.1) =
      shape.fields.filter (node name status strategy errors children tasks).fills := by
  cases strategy
  all_goals
    cases errors
    all_goals
      cases children
      all_goals
        cases tasks
        · rfl
        · rfl

variable {name status strategy errors children tasks} in
theorem forall_mem_content {p : Document → Prop} (text : ∀ value, p (.text value))
    (list : ∀ items, items ≠ [] →
      items = errors.map .text ∨ items = children.map toDocument ∨
        items = tasks.map TaskSnapshot.toDocument → p (.list items)) :
    ∀ entry ∈ content name status strategy errors children tasks, p entry.2 := by
  have strategies : ∀ entry ∈ optionalEntry "strategy" StrategyKind.toDocument strategy,
      p entry.2 := by
    cases strategy with
    | none => exact nofun
    | some kind => exact List.forall_mem_singleton.mpr (text kind.word)
  simp only [content, List.forall_mem_append, List.forall_mem_cons]
  refine ⟨⟨⟨⟨⟨text name, text status.label, nofun⟩, strategies⟩, ?_⟩, ?_⟩, ?_⟩
  · exact forall_mem_listEntry (fun some => list _ some (.inl rfl)) "errors"
  · exact forall_mem_listEntry (fun some => list _ some (.inr (.inl rfl))) "children"
  · exact forall_mem_listEntry (fun some => list _ some (.inr (.inr rfl))) "tasks"

theorem nesting_child {child : Snapshot} (member : child ∈ children) :
    child.toDocument.nesting + 2 ≤
      (node name status strategy errors children tasks).toDocument.nesting := by
  have inside := Document.nesting_le_nestingOfItems (List.mem_map_of_mem (f := toDocument) member)
  have listed : ("children", .list (children.map toDocument)) ∈
      content name status strategy errors children tasks := by
    cases children with
    | nil => cases member
    | cons first rest => simp [content, listEntry]
  have above := Document.nesting_le_nestingOfEntries listed
  have whole : (Document.table (content name status strategy errors children tasks)).nesting =
    Document.nestingOfEntries (content name status strategy errors children tasks) + 1 := rfl
  rw [Document.nesting] at above
  rw [toDocument_node, whole]
  omega

theorem required_name :
    Fields.required ⟨shape, .named (content name status strategy errors children tasks)⟩ "name"
      Reader.text = .done name :=
  Fields.required_eq [] (by simp) rfl

theorem required_status (dialect : Dialect) :
    Fields.required ⟨shape, .named (content name status strategy errors children tasks)⟩ "status"
      (Status.read dialect) = .done status :=
  Fields.required_eq [_] (by simp) (status.read_label dialect)

theorem optional_strategy (dialect : Dialect) :
    Fields.optional ⟨shape, .named (content name status strategy errors children tasks)⟩
      "strategy" (StrategyKind.read dialect) = .done strategy := by
  rw [content, List.append_assoc, List.append_assoc]
  exact Fields.optional_eq _ (by simp) (by simp) nofun (StrategyKind.read_word dialect) strategy

theorem withDefault_errors :
    Fields.withDefault ⟨shape, .named (content name status strategy errors children tasks)⟩
      "errors" [] (Reader.listOf Reader.text) = .done errors := by
  rw [content, List.append_assoc]
  exact withDefault_listEntry (by simp) (by simp) (Reader.mapM_map fun _ _ => rfl)

theorem withDefault_children {read : Reader Snapshot}
    (rereads : ∀ child ∈ children, read child.toDocument = .ok child) :
    Fields.withDefault ⟨shape, .named (content name status strategy errors children tasks)⟩
      "children" [] (Reader.listOf read) = .done children :=
  withDefault_listEntry (by simp) (by simp) (Reader.mapM_map rereads)

theorem withDefault_tasks (dialect : Dialect) :
    Fields.withDefault ⟨shape, .named (content name status strategy errors children tasks)⟩
      "tasks" [] (Reader.listOf (TaskSnapshot.read dialect)) = .done tasks := by
  rw [content, ← List.append_nil (_ ++ listEntry "tasks" _)]
  exact withDefault_listEntry (by simp) (by simp)
    (Reader.mapM_map fun task _ => task.read_toDocument dialect)

end

/-- A tree is read back with as many levels as its document has, and with any more. -/
theorem readWithin_toDocument (dialect : Dialect) (snapshot : Snapshot) :
    ∀ levels, snapshot.toDocument.nesting ≤ levels →
      readWithin dialect levels snapshot.toDocument = .ok snapshot := by
  induction snapshot using nodeInduction with
  | atNode name status strategy errors children tasks ih =>
      rintro (_ | levels) enough
      · rw [toDocument_node] at enough
        cases enough
      have rereads : ∀ child ∈ children,
          readWithin dialect levels child.toDocument = .ok child := by
        intro child member
        have above := nesting_child name status strategy errors children tasks member
        exact ih child member levels (by omega)
      rw [readWithin, toDocument_node, Dialect.record_table, required_name, required_status,
        optional_strategy, withDefault_errors, withDefault_children _ _ _ _ _ _ rereads,
        withDefault_tasks]
      rfl

theorem writable_toDocument (snapshot : Snapshot) : Writable snapshot.toDocument := by
  induction snapshot using nodeInduction with
  | atNode name status strategy errors children tasks ih =>
      rw [toDocument_node]
      refine .table ?_ (forall_mem_content .text ?_)
      · rw [keys_content]
        exact List.Nodup.sublist List.filter_sublist (by decide)
      · rintro items - (rfl | rfl | rfl)
        · exact .list (List.forall_mem_map.mpr fun error _ => .text error)
        · exact .list (List.forall_mem_map.mpr ih)
        · exact .list (List.forall_mem_map.mpr fun task _ => task.writable_toDocument)

/-! ### What is left out -/

/-- No entry at any level is null or an empty list. -/
inductive Trimmed : Document → Prop where
  | text (value : String) : Trimmed (.text value)
  | list {items : List Document} (inside : ∀ item ∈ items, Trimmed item) : Trimmed (.list items)
  | table {entries : List (String × Document)}
      (filled : ∀ entry ∈ entries, entry.2 ≠ .null ∧ entry.2 ≠ .list [])
      (inside : ∀ entry ∈ entries, Trimmed entry.2) : Trimmed (.table entries)

theorem trimmed_task (task : TaskSnapshot) : Trimmed task.toDocument := by
  refine .table ?_ ?_
  · simp only [List.forall_mem_cons]
    exact ⟨⟨nofun, nofun⟩, ⟨nofun, nofun⟩, ⟨nofun, nofun⟩, nofun⟩
  · simp only [List.forall_mem_cons]
    exact ⟨.text _, .text _, .text _, nofun⟩

theorem trimmed_toDocument (snapshot : Snapshot) : Trimmed snapshot.toDocument := by
  induction snapshot using nodeInduction with
  | atNode name status strategy errors children tasks ih =>
      rw [toDocument_node]
      refine .table (forall_mem_content (p := fun value => value ≠ .null ∧ value ≠ .list []) ?_ ?_)
        (forall_mem_content .text ?_)
      · exact fun _ => ⟨nofun, nofun⟩
      · exact fun items some _ => ⟨nofun, fun same => some (Document.list.inj same)⟩
      · rintro items - (rfl | rfl | rfl)
        · exact .list (List.forall_mem_map.mpr fun error _ => .text error)
        · exact .list (List.forall_mem_map.mpr ih)
        · exact .list (List.forall_mem_map.mpr fun task _ => trimmed_task task)

/-! ### Entries in another order -/

theorem steady_readWithin (dialect : Dialect) (levels : Nat) :
    (readWithin dialect levels).Steady := by
  induction levels with
  | zero => exact fun _ _ _ read => nomatch read
  | succ levels ih =>
      have name := Fields.steady_required "name" Reader.steady_text
      have status := Fields.steady_required "status" (Reader.steady_oneOf dialect Status.choices)
      have strategy := Fields.steady_optional "strategy"
        (Reader.steady_oneOf dialect StrategyKind.choices)
      have errors := Fields.steady_withDefault "errors" [] Reader.steady_text.listOf
      have children := Fields.steady_withDefault "children" [] ih.listOf
      have tasks := Fields.steady_withDefault "tasks" [] (TaskSnapshot.steady_read dialect).listOf
      have build := (((((name.map node).seq status).seq strategy).seq errors).seq children).seq
        tasks
      exact Reader.steady_record dialect shape build

theorem read_toDocument (dialect : Dialect) (snapshot : Snapshot) :
    read dialect snapshot.toDocument = .ok snapshot :=
  readWithin_toDocument dialect snapshot _ (Nat.le_succ _)

theorem read_ordered (dialect : Dialect) (snapshot : Snapshot) :
    read dialect (Json.ordered snapshot.toDocument) = .ok snapshot := by
  have writable := snapshot.writable_toDocument
  have enough := Nat.le_succ_of_le (Json.nesting_le_ordered writable)
  exact steady_readWithin dialect _ writable (readWithin_toDocument dialect snapshot _ enough)

end Snapshot

end Rollout
