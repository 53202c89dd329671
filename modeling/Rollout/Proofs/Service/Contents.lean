import Rollout.Service.Text

/-! What a service file has in it, as the entries of tables without anything that is left out, and
the file that these entries are read as. -/

namespace Rollout

open Document (findKey?)

/-! ### Values -/

namespace Reader

theorem natural_eq_ok {width : Width} {n : Nat} (fits : n < width.bound) :
    natural width (.integer n) = .ok n := by
  rw [natural, if_pos ⟨Int.natCast_nonneg n, Int.ofNat_lt.mpr fits⟩]
  rfl

theorem word32_ofWord32 (value : UInt32) : word32 (.ofWord32 value) = .ok value := by
  rw [word32, Document.ofWord32, natural_eq_ok value.toNat_lt_size]
  exact congrArg Except.ok UInt32.ofNat_toNat

theorem word64_ofWord64 (value : UInt64) : word64 (.ofWord64 value) = .ok value := by
  rw [word64, Document.ofWord64, natural_eq_ok value.toNat_lt_size]
  exact congrArg Except.ok UInt64.ofNat_toNat

theorem size_ofWord64 (value : UInt64) : size (.ofWord64 value) = .ok value := by
  rw [size, Document.ofWord64, natural_eq_ok value.toNat_lt_size]
  exact congrArg Except.ok UInt64.ofNat_toNat

theorem mapM_map {α β : Type} {write : α → β} {read : β → Except Mismatch α} {values : List α}
    (rereads : ∀ value ∈ values, read (write value) = .ok value) :
    (values.map write).mapM read = .ok values := by
  induction values with
  | nil => rfl
  | cons value rest ih =>
      rw [List.map_cons, List.mapM_cons, rereads value List.mem_cons_self,
        ih fun other member => rereads other (List.mem_cons_of_mem value member)]
      rfl

end Reader

theorem Goal.read_word (dialect : Dialect) (goal : Goal) :
    Goal.read dialect (.text goal.word) = .ok goal := by
  cases goal
  · rfl
  · rfl

theorem StrategyKind.read_word (dialect : Dialect) (kind : StrategyKind) :
    StrategyKind.read dialect (.text kind.word) = .ok kind := by
  cases kind
  · rfl
  · rfl

namespace Environment

theorem setEntry_of_notMem {name : String} {entries : List (String × String)}
    (absent : name ∉ entries.map (·.1)) (value : String) :
    setEntry name value entries = entries ++ [(name, value)] := by
  induction entries with
  | nil => rfl
  | cons head rest ih =>
      rw [List.map_cons, List.mem_cons, not_or] at absent
      rw [setEntry, if_neg (Ne.symm absent.1), ih absent.2, List.cons_append]

theorem entries_foldl_set {entries : List (String × String)} {environment : Environment}
    (distinct : ((environment.entries ++ entries).map (·.1)).Nodup) :
    (entries.foldl (fun environment entry => environment.set entry.1 entry.2)
      environment).entries = environment.entries ++ entries := by
  induction entries generalizing environment with
  | nil => rw [List.foldl_nil, List.append_nil]
  | cons entry rest ih =>
      have absent : entry.1 ∉ environment.entries.map (·.1) := by
        rw [List.map_append, List.nodup_append] at distinct
        exact fun member => distinct.2.2 _ member _ List.mem_cons_self rfl
      have appended : (environment.set entry.1 entry.2).entries = environment.entries ++ [entry] :=
        setEntry_of_notMem absent entry.2
      rw [List.foldl_cons, ih (by rwa [appended, List.append_assoc]), appended, List.append_assoc]
      rfl

theorem ofList_entries (environment : Environment) :
    ofList environment.entries = environment := by
  have same : (ofList environment.entries).entries = environment.entries := by
    apply entries_foldl_set
    exact environment.distinct
  cases environment
  cases built : ofList _
  rw [built] at same
  cases same
  rfl

def content (environment : Environment) : List (String × Document) :=
  environment.entries.map fun entry => (entry.1, .text entry.2)

theorem read_content (environment : Environment) :
    read (.table environment.content) = .ok environment := by
  have entries : Reader.entriesOf Reader.text (.table environment.content) =
      .ok environment.entries := Reader.mapM_map fun _ _ => rfl
  rw [read, entries]
  exact congrArg Except.ok environment.ofList_entries

end Environment

/-! ### Fields -/

def Without (key : String) (entries : List (String × Document)) : Prop :=
  ∀ entry ∈ entries, entry.1 ≠ key

@[simp] theorem without_nil (key : String) : Without key [] :=
  fun _ member => nomatch member

@[simp] theorem without_cons {key : String} {entry : String × Document}
    {rest : List (String × Document)} :
    Without key (entry :: rest) ↔ entry.1 ≠ key ∧ Without key rest :=
  List.forall_mem_cons

@[simp] theorem without_append {key : String} {first second : List (String × Document)} :
    Without key (first ++ second) ↔ Without key first ∧ Without key second :=
  List.forall_mem_append

theorem findKey?_eq_none {key : String} {entries : List (String × Document)}
    (absent : Without key entries) : findKey? key entries = none := by
  induction entries with
  | nil => rfl
  | cons entry rest ih =>
      rw [without_cons] at absent
      rw [findKey?, if_neg absent.1, ih absent.2]
      rfl

theorem findKey?_append {key : String} {front : List (String × Document)}
    (absent : Without key front) (rest : List (String × Document)) :
    findKey? key (front ++ rest) =
      (findKey? key rest).map fun found => (found.1 + front.length, found.2) := by
  induction front with
  | nil => simp
  | cons entry front ih =>
      rw [without_cons] at absent
      rw [List.cons_append, findKey?, if_neg absent.1, ih absent.2, Option.map_map]
      rfl

theorem findKey?_middle {key : String} {front : List (String × Document)}
    (absent : Without key front) (document : Document) (rest : List (String × Document)) :
    findKey? key (front ++ (key, document) :: rest) = some (front.length, document) := by
  rw [findKey?_append absent, findKey?, if_pos rfl, Option.map_some, Nat.zero_add]

def optionalEntry {α : Type} (key : String) (write : α → Document) :
    Option α → List (String × Document)
  | none => []
  | some value => [(key, write value)]

def emptyEntry {α : Type} (key : String) : List α → List (String × Document)
  | [] => [(key, .list [])]
  | _ => []

def tablesEntry {α : Type} (key : String) (content : α → List (String × Document)) :
    List α → List (String × Document)
  | [] => []
  | items => [(key, .tables (items.map fun item => .table (content item)))]

section

variable {α : Type} {key other : String} (different : other ≠ key)

include different

@[simp] theorem without_optionalEntry (write : α → Document) (value : Option α) :
    Without key (optionalEntry other write value) := by
  cases value
  · exact without_nil key
  · exact without_cons.mpr ⟨different, without_nil key⟩

@[simp] theorem without_emptyEntry (items : List α) : Without key (emptyEntry other items) := by
  cases items
  · exact without_cons.mpr ⟨different, without_nil key⟩
  · exact without_nil key

@[simp] theorem without_tablesEntry (content : α → List (String × Document)) (items : List α) :
    Without key (tablesEntry other content items) := by
  cases items
  · exact without_nil key
  · exact without_cons.mpr ⟨different, without_nil key⟩

end

namespace Fields

theorem find?_named (shape : RecordShape) (entries : List (String × Document)) (key : String) :
    find? ⟨shape, .named entries⟩ key = findKey? key entries := rfl

variable {α : Type} {shape : RecordShape} {key : String} (front : List (String × Document))
  {rest : List (String × Document)} (before : Without key front)

include before

theorem required_eq {read : Reader α} {document : Document} {value : α}
    (rereads : read document = .ok value) :
    required ⟨shape, .named (front ++ (key, document) :: rest)⟩ key read = .done value := by
  rw [required, find?_named, findKey?_middle before]
  simp only [rereads, Attempt.ofRead_ok]

theorem withDefault_eq {read : Reader α} {document : Document} {value default : α}
    (rereads : read document = .ok value) :
    withDefault ⟨shape, .named (front ++ (key, document) :: rest)⟩ key default read =
      .done value := by
  rw [withDefault, find?_named, findKey?_middle before]
  simp only [rereads, Attempt.ofRead_ok]

theorem optional_eq (after : Without key rest) {write : α → Document} {read : Reader α}
    (present : ∀ value, write value ≠ .null) (rereads : ∀ value, read (write value) = .ok value)
    (value : Option α) :
    optional ⟨shape, .named (front ++ optionalEntry key write value ++ rest)⟩ key read =
      .done value := by
  cases value with
  | none =>
      have missing : findKey? key (front ++ [] ++ rest) = none :=
        findKey?_eq_none (by simp [before, after])
      rw [optional, find?_named, optionalEntry, missing]
  | some value =>
      rw [optional, find?_named, optionalEntry, List.append_assoc, List.singleton_append,
        findKey?_middle before]
      split
      · next same =>
        exact absurd (Prod.mk.inj (Option.some.inj same)).2 (present value)
      · next same =>
        cases same
        rw [rereads]
        rfl
      · next wrong => cases wrong

theorem optional_last {write : α → Document} {read : Reader α}
    (present : ∀ value, write value ≠ .null) (rereads : ∀ value, read (write value) = .ok value)
    (value : Option α) :
    optional ⟨shape, .named (front ++ optionalEntry key write value)⟩ key read = .done value := by
  rw [← List.append_nil (front ++ optionalEntry key write value)]
  exact optional_eq front before (without_nil key) present rereads value

/-- A list is read from the one entry that it has, wherever that stands. -/
theorem withDefault_items {middle : List (String × Document)} (between : Without key middle)
    {content : α → List (String × Document)} {read : Reader α}
    (rereads : ∀ item, read (.table (content item)) = .ok item) (items : List α) :
    withDefault ⟨shape, .named
      (front ++ emptyEntry key items ++ middle ++ tablesEntry key content items)⟩ key []
        (Reader.listOf read) = .done items := by
  cases items with
  | nil =>
      rw [List.append_assoc, List.append_assoc, emptyEntry, List.singleton_append]
      exact withDefault_eq front before rfl
  | cons item rest =>
      refine withDefault_eq _ (by simp [emptyEntry, before, between]) ?_
      exact Reader.mapM_map fun item _ => rereads item

end Fields

theorem Dialect.record_table {α : Type} (dialect : Dialect) (shape : RecordShape)
    (build : Fields → Attempt α) (entries : List (String × Document)) :
    dialect.record shape build (.table entries) = (build ⟨shape, .named entries⟩).result := rfl

/-! ### Tables -/

namespace ReadinessCheck

def content (check : ReadinessCheck) : List (String × Document) := [
  ("command", .text check.command),
  ("interval_secs", .ofWord64 check.intervalSecs),
  ("timeout_secs", .ofWord64 check.timeoutSecs)]

theorem read_content (dialect : Dialect) (check : ReadinessCheck) :
    read dialect (.table check.content) = .ok check := by
  have command : Fields.required ⟨shape, .named check.content⟩ "command" Reader.text =
      .done check.command := Fields.required_eq [] (by simp) rfl
  have interval : Fields.withDefault ⟨shape, .named check.content⟩ "interval_secs"
      defaultInterval Reader.word64 = .done check.intervalSecs :=
    Fields.withDefault_eq [_] (by simp) (Reader.word64_ofWord64 _)
  have timeout : Fields.withDefault ⟨shape, .named check.content⟩ "timeout_secs"
      defaultTimeout Reader.word64 = .done check.timeoutSecs :=
    Fields.withDefault_eq [_, _] (by simp) (Reader.word64_ofWord64 _)
  rw [read, Dialect.record_table, command, interval, timeout]
  rfl

end ReadinessCheck

namespace TaskSection

def content (task : TaskSection) : List (String × Document) :=
  [("name", .text task.name)] ++
    optionalEntry "goal" (fun goal => .text goal.word) task.goal ++
    optionalEntry "readiness_check" (fun check => .table check.content) task.readinessCheck

theorem read_content (dialect : Dialect) (task : TaskSection) :
    read dialect (.table task.content) = .ok task := by
  have name : Fields.required ⟨shape, .named task.content⟩ "name" Reader.text =
      .done task.name := Fields.required_eq [] (by simp) rfl
  have goal : Fields.optional ⟨shape, .named task.content⟩ "goal" (Goal.read dialect) =
      .done task.goal :=
    Fields.optional_eq [_] (by simp) (by simp) nofun (Goal.read_word dialect) task.goal
  have check : Fields.optional ⟨shape, .named task.content⟩ "readiness_check"
      (ReadinessCheck.read dialect) = .done task.readinessCheck :=
    Fields.optional_last _ (by simp) nofun (ReadinessCheck.read_content dialect) _
  rw [read, Dialect.record_table, name, goal, check]
  rfl

end TaskSection

namespace PodSection

def content (pod : PodSection) : List (String × Document) :=
  [("type", .text pod.podType), ("count", .ofWord32 pod.count)] ++
    optionalEntry "strategy" (fun kind => .text kind.word) pod.strategy ++
    emptyEntry "tasks" pod.tasks ++
    optionalEntry "env" (fun environment => .table environment.content) pod.environment ++
    tablesEntry "tasks" TaskSection.content pod.tasks

theorem read_content (dialect : Dialect) (pod : PodSection) :
    read dialect (.table pod.content) = .ok pod := by
  have podType : Fields.required ⟨shape, .named pod.content⟩ "type" Reader.text =
      .done pod.podType := Fields.required_eq [] (by simp) rfl
  have count : Fields.required ⟨shape, .named pod.content⟩ "count" Reader.word32 =
      .done pod.count := Fields.required_eq [_] (by simp) (Reader.word32_ofWord32 _)
  have strategy : Fields.optional ⟨shape, .named pod.content⟩ "strategy"
      (StrategyKind.read dialect) = .done pod.strategy := by
    rw [content, List.append_assoc, List.append_assoc]
    exact Fields.optional_eq _ (by simp) (by simp) nofun (StrategyKind.read_word dialect) _
  have environment : Fields.optional ⟨shape, .named pod.content⟩ "env" Environment.read =
      .done pod.environment :=
    Fields.optional_eq _ (by simp) (by simp) nofun Environment.read_content pod.environment
  have tasks : Fields.withDefault ⟨shape, .named pod.content⟩ "tasks" []
      (Reader.listOf (TaskSection.read dialect)) = .done pod.tasks :=
    Fields.withDefault_items _ (by simp) (by simp) (TaskSection.read_content dialect) pod.tasks
  rw [read, Dialect.record_table, podType, count, strategy, environment, tasks]
  rfl

end PodSection

namespace ServiceSection

def content (service : ServiceSection) : List (String × Document) :=
  [("name", .text service.name)] ++ optionalEntry "description" .text service.description

theorem read_content (dialect : Dialect) (service : ServiceSection) :
    read dialect (.table service.content) = .ok service := by
  have name : Fields.required ⟨shape, .named service.content⟩ "name" Reader.text =
      .done service.name := Fields.required_eq [] (by simp) rfl
  have description : Fields.optional ⟨shape, .named service.content⟩ "description" Reader.text =
      .done service.description := by
    refine Fields.optional_last [("name", .text service.name)] (by simp) ?_ ?_ _
    · nofun
    · exact fun _ => rfl
  rw [read, Dialect.record_table, name, description]
  rfl

end ServiceSection

namespace PlanSection

def content (plan : PlanSection) : List (String × Document) :=
  optionalEntry "strategy" (fun kind => .text kind.word) plan.strategy

theorem read_content (dialect : Dialect) (plan : PlanSection) :
    read dialect (.table plan.content) = .ok plan := by
  have strategy : Fields.optional ⟨shape, .named plan.content⟩ "strategy"
      (StrategyKind.read dialect) = .done plan.strategy :=
    Fields.optional_last [] (by simp) nofun (StrategyKind.read_word dialect) _
  rw [read, Dialect.record_table, strategy]
  rfl

end PlanSection

namespace SchedulerSection

def content (scheduler : SchedulerSection) : List (String × Document) :=
  optionalEntry "pass_interval_ms" .ofWord64 scheduler.passIntervalMs ++
    optionalEntry "status_channel_capacity" .ofWord64 scheduler.statusChannelCapacity

theorem read_content (dialect : Dialect) (scheduler : SchedulerSection) :
    read dialect (.table scheduler.content) = .ok scheduler := by
  have interval : Fields.optional ⟨shape, .named scheduler.content⟩ "pass_interval_ms"
      Reader.word64 = .done scheduler.passIntervalMs :=
    Fields.optional_eq [] (by simp) (by simp) nofun Reader.word64_ofWord64 _
  have capacity : Fields.optional ⟨shape, .named scheduler.content⟩ "status_channel_capacity"
      Reader.size = .done scheduler.statusChannelCapacity :=
    Fields.optional_last _ (by simp) nofun Reader.size_ofWord64 _
  rw [read, Dialect.record_table, interval, capacity]
  rfl

end SchedulerSection

namespace ServiceFile

def content (file : ServiceFile) : List (String × Document) :=
  emptyEntry "pods" file.pods ++
    ([("service", .table file.service.content)] ++
      optionalEntry "plan" (fun plan => .table plan.content) file.plan ++
      optionalEntry "scheduler" (fun scheduler => .table scheduler.content) file.scheduler) ++
    tablesEntry "pods" PodSection.content file.pods

theorem read_content (dialect : Dialect) (file : ServiceFile) :
    read dialect (.table file.content) = .ok file := by
  have service : Fields.required ⟨shape, .named file.content⟩ "service"
      (ServiceSection.read dialect) = .done file.service := by
    simp only [content, List.append_assoc, List.singleton_append]
    exact Fields.required_eq _ (by simp) (ServiceSection.read_content dialect _)
  have plan : Fields.optional ⟨shape, .named file.content⟩ "plan" (PlanSection.read dialect) =
      .done file.plan := by
    simp only [content, List.append_assoc]
    rw [← List.append_assoc, ← List.append_assoc]
    exact Fields.optional_eq _ (by simp) (by simp) nofun (PlanSection.read_content dialect) _
  have scheduler : Fields.optional ⟨shape, .named file.content⟩ "scheduler"
      (SchedulerSection.read dialect) = .done file.scheduler := by
    simp only [content, List.append_assoc]
    rw [← List.append_assoc, ← List.append_assoc, ← List.append_assoc]
    exact Fields.optional_eq _ (by simp) (by simp) nofun (SchedulerSection.read_content dialect) _
  have pods : Fields.withDefault ⟨shape, .named file.content⟩ "pods" []
      (Reader.listOf (PodSection.read dialect)) = .done file.pods :=
    Fields.withDefault_items [] (by simp) (by simp) (PodSection.read_content dialect) file.pods
  rw [read, Dialect.record_table, service, plan, scheduler, pods]
  rfl

end ServiceFile

end Rollout
