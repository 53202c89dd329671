import Rollout.Codec.Offer
import Rollout.Proofs.Json.Steady

/-! A recommendation is read back from its document, and from the document with its entries in
order. The tag is found by its key and taken out before the other fields are read, and neither
depends on where it stands. -/

namespace Rollout

open Document (findKey? get?)
open Json (Writable ordered orderedItems orderedEntries)

theorem Json.writable_ofWord64 (value : UInt64) : Writable (.ofWord64 value) :=
  .natural value.toNat_lt_size

theorem Json.writable_ofOption {α : Type} {write : α → Document}
    (each : ∀ value, Writable (write value)) (value : Option α) :
    Writable (.ofOption write value) := by
  cases value with
  | none => exact .null
  | some value => exact each value

theorem Fields.optional_ofOption {α : Type} {shape : RecordShape} {key : String}
    (front : List (String × Document)) {rest : List (String × Document)}
    (before : Without key front) {write : α → Document} {read : Reader α}
    (present : ∀ value, write value ≠ .null) (rereads : ∀ value, read (write value) = .ok value)
    (value : Option α) :
    optional ⟨shape, .named (front ++ (key, .ofOption write value) :: rest)⟩ key read =
      .done value := by
  have found : find? ⟨shape, .named (front ++ (key, .ofOption write value) :: rest)⟩ key =
      some (front.length, .ofOption write value) := findKey?_middle before _ rest
  rw [optional_found found]
  cases value with
  | none => rfl
  | some value =>
      rw [Document.ofOption, Reader.orNull.eq_2 _ _ (present value), rereads]
      rfl

/-! ### Tasks -/

namespace ReadinessCheck

theorem writable_toDocument (check : ReadinessCheck) : Writable check.toDocument := by
  refine .table (by simp) ?_
  simp only [List.forall_mem_cons]
  exact ⟨.text _, Json.writable_ofWord64 _, Json.writable_ofWord64 _, nofun⟩

theorem steady_read (dialect : Dialect) : (read dialect).Steady := by
  have command := Fields.steady_required "command" Reader.steady_text
  have interval := Fields.steady_withDefault "interval_secs" defaultInterval Reader.steady_word64
  have timeout := Fields.steady_withDefault "timeout_secs" defaultTimeout Reader.steady_word64
  exact Reader.steady_record dialect shape (((command.map mk).seq interval).seq timeout)

end ReadinessCheck

namespace TaskDescriptor

def content (task : TaskDescriptor) : List (String × Document) := [
  ("name", .text task.name),
  ("task_id", .text task.taskId),
  ("goal", task.goal.toDocument),
  ("readiness_check", .ofOption ReadinessCheck.toDocument task.readinessCheck)]

theorem writable_toDocument (task : TaskDescriptor) : Writable task.toDocument := by
  refine .table (by simp) ?_
  simp only [List.forall_mem_cons]
  exact ⟨.text _, .text _, .text _,
    Json.writable_ofOption ReadinessCheck.writable_toDocument task.readinessCheck, nofun⟩

theorem read_toDocument (dialect : Dialect) (task : TaskDescriptor) :
    read dialect task.toDocument = .ok task := by
  have name : Fields.required ⟨shape, .named task.content⟩ "name" Reader.text =
      .done task.name := Fields.required_eq [] (by simp) rfl
  have taskId : Fields.required ⟨shape, .named task.content⟩ "task_id" Reader.text =
      .done task.taskId := Fields.required_eq [_] (by simp) rfl
  have goal : Fields.required ⟨shape, .named task.content⟩ "goal" (Goal.read dialect) =
      .done task.goal := Fields.required_eq [_, _] (by simp) (Goal.read_word dialect task.goal)
  have check : Fields.optional ⟨shape, .named task.content⟩ "readiness_check"
      (ReadinessCheck.read dialect) = .done task.readinessCheck :=
    Fields.optional_ofOption [_, _, _] (by simp) nofun (ReadinessCheck.read_content dialect) _
  have written : task.toDocument = .table task.content := rfl
  rw [read, written, Dialect.record_table, name, taskId, goal, check]
  rfl

theorem steady_read (dialect : Dialect) : (read dialect).Steady := by
  have name := Fields.steady_required "name" Reader.steady_text
  have taskId := Fields.steady_required "task_id" Reader.steady_text
  have goal := Fields.steady_required "goal" (Reader.steady_oneOf dialect Goal.choices)
  have check := Fields.steady_optional "readiness_check" (ReadinessCheck.steady_read dialect)
  exact Reader.steady_record dialect shape ((((name.map mk).seq taskId).seq goal).seq check)

end TaskDescriptor

/-! ### Recommendations -/

theorem get?_filter_ne (key tag : String) (entries : List (String × Document)) :
    get? key (.table (entries.filter fun entry => entry.1 != tag)) =
      if key = tag then none else get? key (.table entries) := by
  induction entries with
  | nil => exact (ite_self none).symm
  | cons entry rest ih =>
      obtain ⟨name, value⟩ := entry
      by_cases tagged : name = tag
      · subst tagged
        rw [List.filter_cons_of_neg (by simp), ih, Json.get?_cons]
        by_cases here : key = name
        · rw [if_pos here, if_pos here]
        · rw [if_neg here, if_neg here, if_neg (Ne.symm here)]
      · rw [List.filter_cons_of_pos (by simpa using tagged), Json.get?_cons, Json.get?_cons, ih]
        by_cases here : key = tag
        · rw [if_pos here, if_pos here, if_neg]
          rintro rfl
          exact tagged here
        · rw [if_neg here, if_neg here]

namespace Recommendation

theorem writable_toDocument (recommendation : Recommendation) :
    Writable recommendation.toDocument := by
  cases recommendation with
  | launch task =>
      refine .table (by simp [tagField]) ?_
      simp only [List.forall_mem_cons]
      exact ⟨.text _, task.writable_toDocument, nofun⟩
  | reserve resourceId podInstance =>
      refine .table (by simp [tagField]) ?_
      simp only [List.forall_mem_cons]
      exact ⟨.text _, .text _, .text _, nofun⟩
  | unreserve resourceId =>
      refine .table (by simp [tagField]) ?_
      simp only [List.forall_mem_cons]
      exact ⟨.text _, .text _, nofun⟩

theorem nesting_toDocument_le (recommendation : Recommendation) :
    recommendation.toDocument.nesting ≤ 3 := by
  cases recommendation with
  | launch task =>
      obtain ⟨name, taskId, goal, check⟩ := task
      cases check with
      | none => exact Nat.le_succ 2
      | some check => exact Nat.le_refl 3
  | reserve resourceId podInstance => exact Nat.le_add_left 1 2
  | unreserve resourceId => exact Nat.le_add_left 1 2

theorem read_toDocument (recommendation : Recommendation) :
    read recommendation.toDocument = .ok recommendation := by
  cases recommendation with
  | launch task =>
      have content : readContent .launch (.table [("task", task.toDocument)]) =
          .ok (.launch task) := by
        have field : Fields.required ⟨launchShape, .named [("task", task.toDocument)]⟩ "task"
            (TaskDescriptor.read .retained) = .done task :=
          Fields.required_eq [] (by simp) (task.read_toDocument .retained)
        rw [readContent, Dialect.record_table, field]
        rfl
      exact content
  | reserve resourceId podInstance => rfl
  | unreserve resourceId => rfl

theorem readContent_reordered (kind : Kind) {entries others : List (String × Document)}
    (reordered : ∀ shape, Fields.Reordered ⟨shape, .named entries⟩ ⟨shape, .named others⟩)
    {value : Recommendation} (read : readContent kind (.table entries) = .ok value) :
    readContent kind (.table others) = .ok value := by
  cases kind with
  | launch =>
      have task := Fields.steady_required "task" (TaskDescriptor.steady_read .retained)
      exact Reader.record_reordered .retained (task.map Recommendation.launch) (reordered _) read
  | reserve =>
      have resource := Fields.steady_required "resource_id" Reader.steady_text
      have pod := Fields.steady_required "pod_instance" Reader.steady_text
      exact Reader.record_reordered .retained ((resource.map Recommendation.reserve).seq pod)
        (reordered _) read
  | unreserve =>
      have resource := Fields.steady_required "resource_id" Reader.steady_text
      exact Reader.record_reordered .retained (resource.map Recommendation.unreserve)
        (reordered _) read

theorem readTag_ordered {tag : Document} {kind : Kind} (ok : readTag tag = .ok kind) :
    ordered tag = tag := by
  cases tag with
  | text => rfl
  | null | boolean | integer | float | moment | list | tables | table => cases ok

theorem read_ordered {entries : List (String × Document)} {recommendation : Recommendation}
    (writable : Writable (.table entries)) (ok : read (.table entries) = .ok recommendation) :
    read (ordered (.table entries)) = .ok recommendation := by
  obtain ⟨distinct, inside⟩ : (entries.map (·.1)).Nodup ∧ ∀ entry ∈ entries, Writable entry.2 := by
    cases writable with
    | table distinct inside => exact ⟨distinct, inside⟩
  have same (key : String) : get? key (.table (orderedEntries [] entries)) =
      (get? key (.table entries)).map ordered := by
    rw [Json.get?_orderedEntries distinct]
    exact Option.or_none
  rw [read] at ok
  cases found : findKey? tagField entries with
  | none =>
      rw [found] at ok
      cases ok
  | some entry =>
      obtain ⟨place, tag⟩ := entry
      rw [found] at ok
      obtain ⟨kind, tagged, content⟩ := Reader.bind_eq_ok ok
      have there := same tagField
      rw [Json.get?_table, Json.get?_table, found, Option.map_some, Option.map_some,
        readTag_ordered tagged] at there
      obtain ⟨⟨other, _⟩, moved, rfl⟩ := Option.map_eq_some_iff.mp there
      rw [ordered, read, moved]
      simp only [tagged]
      refine readContent_reordered kind (fun shape => .named ?_ fun key => ?_) content
      · exact fun entry member => inside entry (List.mem_filter.mp member).1
      · rw [get?_filter_ne, get?_filter_ne, same key]
        split
        · rfl
        · rfl

end Recommendation

end Rollout
