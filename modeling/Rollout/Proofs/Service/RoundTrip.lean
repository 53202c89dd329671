import Mathlib.Algebra.Group.Nat.Defs
import Rollout.Proofs.Service.Contents
import Rollout.Proofs.Toml.Tables

/-! A service file that can be written is read back from its text as it was.  The lines of each
section define exactly what the section has in it, so what is left out of the file, what is there
but empty and what has the value of a default stay apart. -/

namespace Rollout

open Toml (Line Statement Defines Appends Apart)
open Toml.Statement (assigns table entry under)

/-! ### Sections -/

def optionalLines {α : Type} (lines : α → List Line) : Option α → List Line
  | none => []
  | some value => lines value

def optionalSection {α : Type} (key : String) (content : α → List (String × Document)) :
    Option α → List Statement
  | none => []
  | some value => table key (assigns (content value))

theorem statements_optionalLines {α : Type} {lines : α → List Line} {key : String}
    {content : α → List (String × Document)}
    (same : ∀ value, (lines value).map Line.statement = table key (assigns (content value)))
    (value : Option α) :
    (optionalLines lines value).map Line.statement = optionalSection key content value := by
  cases value with
  | none => rfl
  | some value => exact same value

theorem appends_optionalSection {α : Type} {content : α → List (String × Document)}
    (distinct : ∀ value, ((content value).map (·.1)).Nodup) (key : String) (value : Option α) :
    Appends (optionalSection key content value)
      (optionalEntry key (fun value => .table (content value)) value) := by
  cases value with
  | none => exact Appends.nil
  | some value => exact (Defines.assigns (distinct value)).table key

theorem appends_tablesEntry {α : Type} {content : α → List (String × Document)}
    {body : α → List Statement} (defines : ∀ item, Defines (body item) (content item))
    (key : String) (items : List α) :
    Appends (items.flatMap fun item => entry key (body item)) (tablesEntry key content items) := by
  cases items with
  | nil => exact Appends.nil
  | cons item rest =>
      exact Defines.entries (List.cons_ne_nil item rest) (fun item _ => defines item) key

section

variable {α : Type} {key : String} {front : List (String × Document)}

theorem apart_optionalEntry (before : Without key front) (write : α → Document)
    (value : Option α) : Apart front (optionalEntry key write value) := by
  intro entry member other present
  cases value with
  | none => cases present
  | some value =>
      rw [List.mem_singleton.mp present]
      exact before entry member

theorem apart_emptyEntry (after : Without key front) (items : List α) :
    Apart (emptyEntry key items) front := by
  intro entry member other present
  cases items with
  | nil =>
      rw [List.mem_singleton.mp member]
      exact (after other present).symm
  | cons item rest => cases member

/-- A list is either a plain value or tables, and so has only one place in its table. -/
theorem apart_tablesEntry {middle : List (String × Document)} (before : Without key front)
    (between : Without key middle) (content : α → List (String × Document)) (items : List α) :
    Apart (front ++ emptyEntry key items ++ middle) (tablesEntry key content items) := by
  intro entry member other present
  cases items with
  | nil => cases present
  | cons item rest =>
      rw [List.mem_singleton.mp present]
      have absent : Without key (front ++ emptyEntry key (item :: rest) ++ middle) := by
        simp [emptyEntry, before, between]
      exact absent entry member

end

namespace ReadinessCheck

theorem content_distinct (check : ReadinessCheck) : (check.content.map (·.1)).Nodup := by
  simp [content]

end ReadinessCheck

namespace TaskSection

def body (task : TaskSection) : List Statement :=
  assigns ([("name", .text task.name)] ++
      optionalEntry "goal" (fun goal => .text goal.word) task.goal) ++
    optionalSection "readiness_check" ReadinessCheck.content task.readinessCheck

theorem statements_lines (task : TaskSection) :
    task.lines.map Line.statement = (entry "tasks" task.body).map (under "pods") := by
  obtain ⟨name, goal, check⟩ := task
  cases goal
  all_goals
    cases check
    · rfl
    · rfl

theorem defines_body (task : TaskSection) : Defines task.body task.content := by
  refine Defines.append (Defines.assigns ?_)
    (appends_optionalSection ReadinessCheck.content_distinct _ _)
    (apart_optionalEntry (by simp) _ _)
  cases task.goal
  · simp [optionalEntry]
  · simp [optionalEntry]

end TaskSection

namespace Environment

theorem content_distinct (environment : Environment) :
    (environment.content.map (·.1)).Nodup := by
  rw [content, List.map_map]
  exact environment.distinct

theorem statements_lines (environment : Environment) :
    environment.lines.map Line.statement =
      (table "env" (assigns environment.content)).map (under "pods") := by
  simp only [lines, table, assigns, content, List.map_cons, List.map_map]
  rfl

end Environment

namespace PodSection

def values (pod : PodSection) : List (String × Document) :=
  [("type", .text pod.podType), ("count", .ofWord32 pod.count)] ++
    optionalEntry "strategy" (fun kind => .text kind.word) pod.strategy ++
    emptyEntry "tasks" pod.tasks

def body (pod : PodSection) : List Statement :=
  assigns pod.values ++ optionalSection "env" Environment.content pod.environment ++
    pod.tasks.flatMap fun task => entry "tasks" task.body

theorem lines_eq (pod : PodSection) :
    pod.lines = .item ["pods"] :: .assign "type" (.text pod.podType) ::
      .assign "count" (word32Scalar pod.count) ::
      (optionalLine "strategy" (fun kind => .text kind.word) pod.strategy ++
        (if pod.tasks.isEmpty then [.assign "tasks" .emptyList] else []) ++
        optionalLines Environment.lines pod.environment ++
        pod.tasks.flatMap TaskSection.lines) := by
  unfold lines
  cases pod.environment
  · rfl
  · rfl

theorem statements_lines (pod : PodSection) :
    pod.lines.map Line.statement = entry "pods" pod.body := by
  have plain : (.assign "type" (.text pod.podType) :: .assign "count" (word32Scalar pod.count) ::
        (optionalLine "strategy" (fun kind => .text kind.word) pod.strategy ++
          if pod.tasks.isEmpty then [.assign "tasks" .emptyList] else [])).map Line.statement =
      (assigns pod.values).map (under "pods") := by
    unfold values
    cases pod.strategy
    all_goals
      cases pod.tasks
      · rfl
      · rfl
  have environment : (optionalLines Environment.lines pod.environment).map Line.statement =
      (optionalSection "env" Environment.content pod.environment).map (under "pods") := by
    cases pod.environment with
    | none => rfl
    | some environment => exact environment.statements_lines
  have tasks : (pod.tasks.flatMap TaskSection.lines).map Line.statement =
      (pod.tasks.flatMap fun task => entry "tasks" task.body).map (under "pods") := by
    simp only [List.map_flatMap, TaskSection.statements_lines]
  rw [lines_eq, body, entry, List.map_append, List.map_append, ← tasks, ← environment, ← plain]
  simp only [List.map_cons, List.map_append, List.cons_append]
  rfl

theorem defines_body (pod : PodSection) : Defines pod.body pod.content := by
  have distinct : (pod.values.map (·.1)).Nodup := by
    obtain ⟨podType, count, strategy, environment, tasks⟩ := pod
    cases strategy
    all_goals
      cases tasks
      · simp [values, optionalEntry, emptyEntry]
      · simp [values, optionalEntry, emptyEntry]
  have plain := (Defines.assigns distinct).append
    (appends_optionalSection Environment.content_distinct "env" pod.environment)
    (apart_optionalEntry (by simp [values]) _ _)
  refine plain.append (appends_tablesEntry TaskSection.defines_body "tasks" pod.tasks) ?_
  exact apart_tablesEntry (by simp) (by simp) _ _

end PodSection

namespace ServiceSection

theorem content_distinct (service : ServiceSection) : (service.content.map (·.1)).Nodup := by
  unfold content
  cases service.description
  · simp [optionalEntry]
  · simp [optionalEntry]

theorem statements_lines (service : ServiceSection) :
    service.lines.map Line.statement = table "service" (assigns service.content) := by
  unfold lines content
  cases service.description
  · rfl
  · rfl

end ServiceSection

namespace PlanSection

theorem content_distinct (plan : PlanSection) : (plan.content.map (·.1)).Nodup := by
  unfold content
  cases plan.strategy
  · simp [optionalEntry]
  · simp [optionalEntry]

theorem statements_lines (plan : PlanSection) :
    plan.lines.map Line.statement = table "plan" (assigns plan.content) := by
  unfold lines content
  cases plan.strategy
  · rfl
  · rfl

end PlanSection

namespace SchedulerSection

theorem content_distinct (scheduler : SchedulerSection) : (scheduler.content.map (·.1)).Nodup := by
  unfold content
  cases scheduler.passIntervalMs
  all_goals
    cases scheduler.statusChannelCapacity
    · simp [optionalEntry]
    · simp [optionalEntry]

theorem statements_lines (scheduler : SchedulerSection) :
    scheduler.lines.map Line.statement = table "scheduler" (assigns scheduler.content) := by
  unfold lines content
  cases scheduler.passIntervalMs
  all_goals
    cases scheduler.statusChannelCapacity
    · rfl
    · rfl

end SchedulerSection

namespace ServiceFile

def body (file : ServiceFile) : List Statement :=
  assigns (emptyEntry "pods" file.pods) ++
    (table "service" (assigns file.service.content) ++
      optionalSection "plan" PlanSection.content file.plan ++
      optionalSection "scheduler" SchedulerSection.content file.scheduler) ++
    file.pods.flatMap fun pod => entry "pods" pod.body

theorem lines_eq (file : ServiceFile) :
    file.lines = (if file.pods.isEmpty then [.assign "pods" .emptyList] else []) ++
      file.service.lines ++ optionalLines PlanSection.lines file.plan ++
      optionalLines SchedulerSection.lines file.scheduler ++
      file.pods.flatMap PodSection.lines := by
  unfold lines
  cases file.plan
  all_goals
    cases file.scheduler
    · rfl
    · rfl

theorem statements_lines (file : ServiceFile) : file.lines.map Line.statement = file.body := by
  have plain : (if file.pods.isEmpty then [Line.assign "pods" .emptyList] else []).map
      Line.statement = assigns (emptyEntry "pods" file.pods) := by
    cases file.pods
    · rfl
    · rfl
  have pods : (file.pods.flatMap PodSection.lines).map Line.statement =
      file.pods.flatMap fun pod => entry "pods" pod.body := by
    simp only [List.map_flatMap, PodSection.statements_lines]
  simp only [lines_eq, body, List.map_append, List.append_assoc, plain, pods,
    file.service.statements_lines, statements_optionalLines PlanSection.statements_lines,
    statements_optionalLines SchedulerSection.statements_lines]

/-- The lines of a file define what the file has in it. -/
theorem defines_body (file : ServiceFile) : Defines file.body file.content := by
  have plain : Defines (assigns (emptyEntry "pods" file.pods)) (emptyEntry "pods" file.pods) := by
    apply Defines.assigns
    cases file.pods
    · simp [emptyEntry]
    · simp [emptyEntry]
  have service := Defines.table (Defines.assigns file.service.content_distinct) "service"
  have plan := service.append
    (appends_optionalSection PlanSection.content_distinct "plan" file.plan)
    (apart_optionalEntry (by simp) _ _)
  have sections := plan.append
    (appends_optionalSection SchedulerSection.content_distinct "scheduler" file.scheduler)
    (apart_optionalEntry (by simp) _ _)
  have pods := appends_tablesEntry PodSection.defines_body "pods" file.pods
  refine (plain.append sections (apart_emptyEntry (by simp) file.pods)).append pods ?_
  exact apart_tablesEntry (without_nil "pods") (by simp) PodSection.content file.pods

end ServiceFile

/-! ### Numbers -/

/-- A check of lines that depends on nothing but the numbers of 64 bits. -/
structure Judges (check : Line → Bool) (good : UInt64 → Bool) : Prop where
  text (key text : String) : check (.assign key (.text text)) = true
  emptyList (key : String) : check (.assign key .emptyList) = true
  word32 (key : String) (value : UInt32) : check (.assign key (word32Scalar value)) = true
  word64 (key : String) (word : UInt64) : check (.assign key (word64Scalar word)) = good word
  header {path : List String} (nonempty : path ≠ []) (short : path.length ≤ 3) :
    check (.header path) = true
  item {path : List String} (nonempty : path ≠ []) (short : path.length ≤ 3) :
    check (.item path) = true

def TaskSection.words (task : TaskSection) : List UInt64 :=
  match task.readinessCheck with
  | none => []
  | some check => [check.intervalSecs, check.timeoutSecs]

def PodSection.words (pod : PodSection) : List UInt64 :=
  pod.tasks.flatMap TaskSection.words

def SchedulerSection.words (scheduler : SchedulerSection) : List UInt64 :=
  scheduler.passIntervalMs.toList ++ scheduler.statusChannelCapacity.toList

def ServiceFile.words (file : ServiceFile) : List UInt64 :=
  (match file.scheduler with
    | none => []
    | some scheduler => scheduler.words) ++
    file.pods.flatMap PodSection.words

namespace Judges

variable {check : Line → Bool} {good : UInt64 → Bool} (judges : Judges check good)

include judges

theorem all_service (service : ServiceSection) : service.lines.all check = true := by
  unfold ServiceSection.lines
  cases service.description
  all_goals simp [optionalLine, judges.text, judges.header]

theorem all_plan (plan : PlanSection) : plan.lines.all check = true := by
  unfold PlanSection.lines
  cases plan.strategy
  all_goals simp [optionalLine, judges.text, judges.header]

theorem all_scheduler (scheduler : SchedulerSection) :
    scheduler.lines.all check = scheduler.words.all good := by
  unfold SchedulerSection.lines SchedulerSection.words
  cases scheduler.passIntervalMs
  all_goals cases scheduler.statusChannelCapacity
  all_goals simp [optionalLine, judges.word64, judges.header]

theorem all_task (task : TaskSection) : task.lines.all check = task.words.all good := by
  unfold TaskSection.lines TaskSection.words
  cases task.goal
  all_goals cases task.readinessCheck
  all_goals
    simp [optionalLine, ReadinessCheck.lines, judges.text, judges.word64, judges.header,
      judges.item]

theorem all_pod (pod : PodSection) : pod.lines.all check = pod.words.all good := by
  have tasks : (pod.tasks.flatMap TaskSection.lines).all check = pod.words.all good := by
    simp only [PodSection.words, List.all_flatMap, judges.all_task]
  rw [PodSection.lines, List.all_cons, List.all_cons, List.all_cons, List.all_append,
    List.all_append, tasks]
  cases pod.strategy
  all_goals cases pod.environment
  all_goals cases pod.tasks
  all_goals
    simp [optionalLine, Environment.lines, Function.comp_def, judges.text, judges.emptyList,
      judges.word32, judges.header, judges.item]

/-- A file passes such a check just if its numbers do. -/
theorem all_file (file : ServiceFile) : file.lines.all check = file.words.all good := by
  have pods : (file.pods.flatMap PodSection.lines).all check =
      (file.pods.flatMap PodSection.words).all good := by
    simp only [List.all_flatMap, judges.all_pod]
  rw [ServiceFile.lines, ServiceFile.words, List.all_append, List.all_append, List.all_append,
    List.all_append, List.all_append, pods, judges.all_service]
  cases file.plan
  all_goals cases file.scheduler
  all_goals cases file.pods
  all_goals simp [judges.all_plan, judges.all_scheduler, judges.emptyList]

end Judges

theorem inRange_iff {n : Nat} : Toml.inRange n = true ↔ n ≤ 2 ^ 63 - 1 := by
  rw [Toml.inRange, Bool.and_eq_true, decide_eq_true_iff, decide_eq_true_iff, Toml.integerBound]
  omega

theorem judges_isWritable :
    Judges Line.isWritable fun word => Toml.inRange word.toNat where
  text _ _ := rfl
  emptyList _ := rfl
  word32 key value := by
    have small : value.toNat < 4294967296 := value.toNat_lt
    rw [Line.isWritable, word32Scalar, Toml.Scalar.isWritable]
    exact inRange_iff.mpr (by omega)
  word64 _ _ := rfl
  header _ _ := rfl
  item _ _ := rfl

theorem judges_isAddressed : Judges Line.isAddressed fun _ => true where
  text _ _ := rfl
  emptyList _ := rfl
  word32 _ _ := rfl
  word64 _ _ := rfl
  header nonempty short := by
    simp only [Line.isAddressed, Bool.and_eq_true, decide_eq_true_eq]
    exact ⟨nonempty, Nat.lt_of_le_of_lt short (by decide)⟩
  item nonempty short := by
    simp only [Line.isAddressed, Bool.and_eq_true, decide_eq_true_eq]
    exact ⟨nonempty, Nat.lt_of_le_of_lt short (by decide)⟩

/-! ### Files -/

namespace ServiceFile

/-- A file is read back from its text as it was, and it has a text unless one of its numbers
needs more than 63 bits. -/
theorem ofToml_toToml (file : ServiceFile) :
    ((∀ word ∈ file.words, word.toNat ≤ 2 ^ 63 - 1) →
      ∃ text, file.toToml = .ok text ∧ ofToml text = .ok file) ∧
    ((∃ word ∈ file.words, 2 ^ 63 - 1 < word.toNat) → file.toToml = .error .outOfRange) := by
  have writable := judges_isWritable.all_file file
  have addressed : file.lines.all Line.isAddressed = true := by
    rw [judges_isAddressed.all_file]
    exact List.all_eq_true.mpr fun _ _ => rfl
  constructor
  · intro small
    rw [List.all_eq_true.mpr fun word member => inRange_iff.mpr (small word member)] at writable
    obtain ⟨text, written, read⟩ := Toml.read?_write writable addressed
    refine ⟨text, written, ?_⟩
    rw [statements_lines, Toml.build?_of_defines file.defines_body] at read
    rw [ofToml, read]
    simp only [file.read_content]
  · rintro ⟨word, member, large⟩
    have refused : ¬ file.lines.all Line.isWritable = true := by
      rw [writable, List.all_eq_true]
      intro all
      have small := inRange_iff.mp (all word member)
      omega
    exact if_neg refused

/-- Texts and names that need each of the four forms, lists and sections that are there but
empty, and the greatest number with a text; the next one has none. -/
theorem ofToml_toToml_of_odd_texts :
    let check : ReadinessCheck := ⟨"\\ \x27 \"\"\"\n\t\u0007\r", 0, 9223372036854775807⟩
    let environment : Environment := ⟨[("", "\\"), ("a.b", "\"\x27"), ("#", "\x27\n")], by decide⟩
    let file : ServiceFile := ⟨⟨"", some ""⟩, some ⟨none⟩, some ⟨none, some 0⟩, [
      ⟨"index", 0, none, some environment, [⟨"\x7f", none, some check⟩]⟩,
      ⟨"[", 1, some .parallel, some .empty, []⟩]⟩
    (∃ text, file.toToml = .ok text ∧ ofToml text = .ok file) ∧
      { file with scheduler := some ⟨some 9223372036854775808, none⟩ }.toToml =
        .error .outOfRange := by
  intro check environment file
  have small : ∀ word ∈ file.words, word.toNat ≤ 2 ^ 63 - 1 := by
    simp [file, check, words, SchedulerSection.words, PodSection.words, TaskSection.words]
  have large : 2 ^ 63 - 1 < UInt64.toNat 9223372036854775808 := by simp
  exact ⟨(ofToml_toToml file).1 small,
    (ofToml_toToml _).2 ⟨9223372036854775808, List.mem_cons_self, large⟩⟩

end ServiceFile

end Rollout
