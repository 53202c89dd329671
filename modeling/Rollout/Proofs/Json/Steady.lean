import Rollout.Proofs.Json.Order
import Rollout.Proofs.Service.Contents

/-! Readers that do not mind the order of entries.  Fields are found by their names, so a record
that is read from a document is read from the document with its entries in order as well; the
order decides only which of several failures is reported. -/

namespace Rollout

open Document (findKey? get?)
open Json (Writable ordered orderedItems orderedEntries)

/-- What is read is also read when the entries of tables are put in order. -/
def Reader.Steady {α : Type} (read : Reader α) : Prop :=
  ∀ ⦃document⦄, Writable document → ∀ ⦃value⦄,
    read document = .ok value → read (ordered document) = .ok value

theorem Json.ordered_eq_null {document : Document} (null : ordered document = .null) :
    document = .null := by
  cases document with
  | null => rfl
  | boolean | integer | float | text | moment | list | tables | table => cases null

namespace Reader

variable {α β : Type}

theorem bind_eq_ok {outcome : Except Mismatch α} {f : α → Except Mismatch β} {value : β}
    (ok : outcome >>= f = .ok value) : ∃ held, outcome = .ok held ∧ f held = .ok value := by
  cases outcome with
  | ok held => exact ⟨held, rfl, ok⟩
  | error cause => cases ok

theorem map_eq_ok {outcome : Except Mismatch α} {f : α → β} {value : β}
    (ok : outcome.map f = .ok value) : ∃ held, outcome = .ok held ∧ f held = value := by
  cases outcome with
  | ok held => exact ⟨held, rfl, Except.ok.inj ok⟩
  | error cause => cases ok

def orNull (read : Reader α) : Reader (Option α)
  | .null => .ok none
  | document => (read document).map some

theorem Steady.orNull {read : Reader α} (steady : read.Steady) : read.orNull.Steady := by
  intro document writable value ok
  by_cases null : document = .null
  · rw [null] at ok ⊢
    exact ok
  · rw [orNull.eq_2 _ _ null] at ok
    rw [orNull.eq_2 _ _ fun same => null (Json.ordered_eq_null same)]
    obtain ⟨held, there, rfl⟩ := map_eq_ok ok
    rw [steady writable there]
    rfl

end Reader

/-! ### Fields in another order -/

/-- The same fields, where those of a table may stand in another order. -/
inductive Fields.Reordered : Fields → Fields → Prop where
  | named {shape : RecordShape} {entries others : List (String × Document)}
      (writable : ∀ entry ∈ entries, Writable entry.2)
      (same : ∀ key, get? key (.table others) = (get? key (.table entries)).map ordered) :
      Reordered ⟨shape, .named entries⟩ ⟨shape, .named others⟩
  | listed {shape : RecordShape} {items : List Document}
      (writable : ∀ item ∈ items, Writable item) :
      Reordered ⟨shape, .listed items⟩ ⟨shape, .listed (orderedItems items)⟩

def Fields.Steady {α : Type} (build : Fields → Attempt α) : Prop :=
  ∀ ⦃fields others⦄, Fields.Reordered fields others → ∀ ⦃value⦄,
    build fields = .done value → build others = .done value

namespace Fields

theorem reordered_orderedEntries {shape : RecordShape} {entries : List (String × Document)}
    (distinct : (entries.map (·.1)).Nodup) (inside : ∀ entry ∈ entries, Writable entry.2) :
    Reordered ⟨shape, .named entries⟩ ⟨shape, .named (orderedEntries [] entries)⟩ := by
  refine .named inside fun key => ?_
  rw [Json.get?_orderedEntries distinct]
  exact Option.or_none

theorem find?_listed (shape : RecordShape) (items : List Document) (key : String) :
    find? ⟨shape, .listed items⟩ key =
      items[shape.fields.idxOf key]?.map fun item => (shape.fields.idxOf key, item) := rfl

theorem Reordered.found {fields others : Fields} (reordered : Reordered fields others)
    {name : String} {rank : Nat} {document : Document}
    (found : fields.find? name = some (rank, document)) :
    Writable document ∧ ∃ place, others.find? name = some (place, ordered document) := by
  cases reordered with
  | @named shape entries others writable same =>
      rw [find?_named] at found
      have here := same name
      rw [Json.get?_table, Json.get?_table, found, Option.map_some, Option.map_some] at here
      obtain ⟨⟨place, other⟩, there, rfl⟩ := Option.map_eq_some_iff.mp here
      have holds : get? name (.table entries) = some document := by
        rw [Json.get?_table, found]
        rfl
      exact ⟨writable _ (Json.mem_of_get? holds), place, there⟩
  | @listed shape items writable =>
      rw [find?_listed] at found ⊢
      obtain ⟨item, there, same⟩ := Option.map_eq_some_iff.mp found
      cases same
      refine ⟨writable document (List.mem_of_getElem? there), shape.fields.idxOf name, ?_⟩
      rw [Json.orderedItems_eq_map, List.getElem?_map, there]
      rfl

theorem Reordered.missing {fields others : Fields} (reordered : Reordered fields others)
    {name : String} (missing : fields.find? name = none) : others.find? name = none := by
  cases reordered with
  | named writable same =>
      rw [find?_named] at missing ⊢
      have here := same name
      rw [Json.get?_table, Json.get?_table, missing] at here
      simpa using here
  | listed writable =>
      rw [find?_listed] at missing ⊢
      rw [Json.orderedItems_eq_map, List.getElem?_map, Option.map_map]
      simpa using missing

end Fields

namespace Attempt

variable {α β : Type}

theorem map_eq_done {f : α → β} {attempt : Attempt α} {value : β}
    (done : f <$> attempt = .done value) : ∃ held, attempt = .done held ∧ f held = value := by
  cases attempt with
  | done held => exact ⟨held, rfl, Attempt.done.inj done⟩
  | failed rank cause => cases done

theorem seq_eq_done {first : Attempt (α → β)} {second : Attempt α} {value : β}
    (done : first <*> second = .done value) :
    ∃ f held, first = .done f ∧ second = .done held ∧ f held = value := by
  cases first with
  | done f =>
      cases second with
      | done held => exact ⟨f, held, rfl, rfl, Attempt.done.inj done⟩
      | failed rank cause => cases done
  | failed rank cause =>
      cases second with
      | done held => cases done
      | failed rank' cause' =>
          change (if rank ≤ rank' then Attempt.failed rank cause else .failed rank' cause') = _
            at done
          split at done
          · cases done
          · cases done

theorem ofRead_eq_done {rank : Nat} {outcome : Except Mismatch α} {value : α}
    (done : ofRead rank outcome = .done value) : outcome = .ok value := by
  cases outcome with
  | ok held => exact congrArg Except.ok (Attempt.done.inj done)
  | error cause => cases done

theorem result_eq_ok {attempt : Attempt α} {value : α} (ok : attempt.result = .ok value) :
    attempt = .done value := by
  cases attempt with
  | done held => exact congrArg Attempt.done (Except.ok.inj ok)
  | failed rank cause => cases ok

end Attempt

namespace Fields

variable {α β : Type}

theorem absent_ne_done {fields : Fields} {name : String} {value : α} :
    fields.absent name ≠ Attempt.done value := by
  obtain ⟨shape, source⟩ := fields
  cases source
  · nofun
  · nofun

theorem Steady.map (f : α → β) {build : Fields → Attempt α} (steady : Steady build) :
    Steady fun fields => f <$> build fields := by
  intro fields others reordered value done
  obtain ⟨held, built, rfl⟩ := Attempt.map_eq_done done
  simp only [steady reordered built, Attempt.map_done]

theorem Steady.seq {first : Fields → Attempt (α → β)} {second : Fields → Attempt α}
    (steady : Steady first) (other : Steady second) :
    Steady fun fields => first fields <*> second fields := by
  intro fields others reordered value done
  obtain ⟨f, held, built, also, rfl⟩ := Attempt.seq_eq_done done
  simp only [steady reordered built, other reordered also, Attempt.seq_done]

theorem steady_required (name : String) {read : Reader α} (steady : read.Steady) :
    Steady fun fields => fields.required name read := by
  intro fields others reordered value done
  dsimp only [required] at done ⊢
  cases found : fields.find? name with
  | none =>
      rw [found] at done
      exact absurd done absent_ne_done
  | some entry =>
      obtain ⟨rank, document⟩ := entry
      obtain ⟨writable, place, there⟩ := reordered.found found
      rw [found] at done
      rw [there]
      simp only [steady writable (Attempt.ofRead_eq_done done), Attempt.ofRead_ok]

theorem steady_withDefault (name : String) (default : α) {read : Reader α}
    (steady : read.Steady) : Steady fun fields => fields.withDefault name default read := by
  intro fields others reordered value done
  dsimp only [withDefault] at done ⊢
  cases found : fields.find? name with
  | none =>
      rw [found] at done
      rw [reordered.missing found]
      exact done
  | some entry =>
      obtain ⟨rank, document⟩ := entry
      obtain ⟨writable, place, there⟩ := reordered.found found
      rw [found] at done
      rw [there]
      simp only [steady writable (Attempt.ofRead_eq_done done), Attempt.ofRead_ok]

theorem optional_found {fields : Fields} {name : String} {rank : Nat} {document : Document}
    (found : fields.find? name = some (rank, document)) (read : Reader α) :
    fields.optional name read = Attempt.ofRead rank (read.orNull document) := by
  rw [optional, found]
  cases document
  all_goals rfl

theorem steady_optional (name : String) {read : Reader α} (steady : read.Steady) :
    Steady fun fields => fields.optional name read := by
  intro fields others reordered value done
  dsimp only at done ⊢
  cases found : fields.find? name with
  | none =>
      rw [optional, found] at done
      rw [optional, reordered.missing found]
      cases reordered with
      | named writable same => exact done
      | listed writable => exact absurd done absent_ne_done
  | some entry =>
      obtain ⟨rank, document⟩ := entry
      obtain ⟨writable, place, there⟩ := reordered.found found
      rw [optional_found found] at done
      rw [optional_found there, steady.orNull writable (Attempt.ofRead_eq_done done),
        Attempt.ofRead_ok]

end Fields

/-! ### Records, lists and names -/

theorem Dialect.noContent_eq_ok {dialect : Dialect} {document : Document}
    (writable : Writable document) (empty : dialect.noContent document = .ok ()) :
    ordered document = document := by
  cases writable with
  | null | boolean | natural | text => rfl
  | @list items inside =>
      cases items with
      | nil => rfl
      | cons item rest => cases dialect <;> cases empty
  | @table entries distinct inside =>
      cases entries with
      | nil => rfl
      | cons entry rest => cases dialect <;> cases empty

namespace Reader

variable {α : Type}

theorem record_list (dialect : Dialect) (shape : RecordShape) (build : Fields → Attempt α)
    (items : List Document) :
    dialect.record shape build (.list items) =
      ((build ⟨shape, .listed items⟩).result >>= fun value =>
        match dialect.surplus? items.length shape with
        | none => pure value
        | some cause => throw cause) := rfl

theorem record_reordered (dialect : Dialect) {shape : RecordShape} {build : Fields → Attempt α}
    (steady : Fields.Steady build) {entries others : List (String × Document)}
    (reordered : Fields.Reordered ⟨shape, .named entries⟩ ⟨shape, .named others⟩) {value : α}
    (read : dialect.record shape build (.table entries) = .ok value) :
    dialect.record shape build (.table others) = .ok value := by
  rw [Dialect.record_table] at read ⊢
  rw [steady reordered (Attempt.result_eq_ok read), Attempt.result_done]

theorem steady_record (dialect : Dialect) (shape : RecordShape) {build : Fields → Attempt α}
    (steady : Fields.Steady build) : (dialect.record shape build).Steady := by
  intro document writable value read
  cases writable with
  | null | boolean | natural | text => cases read
  | @list items inside =>
      rw [record_list] at read
      obtain ⟨held, built, fits⟩ := bind_eq_ok read
      rw [ordered, record_list, steady (.listed inside) (Attempt.result_eq_ok built),
        Json.orderedItems_eq_map, List.length_map]
      exact fits
  | table distinct inside =>
      exact record_reordered dialect steady (Fields.reordered_orderedEntries distinct inside) read

theorem steady_text : text.Steady := by
  intro document writable value read
  cases writable with
  | text => exact read
  | null | boolean | natural | list | table => cases read

theorem steady_word64 : word64.Steady := by
  intro document writable value read
  cases writable with
  | natural => exact read
  | null | boolean | text | list | table => cases read

theorem mapM_orderedItems {read : Reader α} (steady : read.Steady) {items : List Document}
    (inside : ∀ item ∈ items, Writable item) {values : List α}
    (ok : items.mapM read = .ok values) : (orderedItems items).mapM read = .ok values := by
  induction items generalizing values with
  | nil => exact ok
  | cons item rest ih =>
      rw [List.forall_mem_cons] at inside
      rw [List.mapM_cons] at ok
      obtain ⟨value, first, ok⟩ := bind_eq_ok ok
      obtain ⟨others, next, made⟩ := bind_eq_ok ok
      rw [orderedItems, List.mapM_cons, steady inside.1 first, ih inside.2 next]
      exact made

theorem Steady.listOf {read : Reader α} (steady : read.Steady) : (listOf read).Steady := by
  intro document writable values ok
  cases writable with
  | list inside => exact mapM_orderedItems steady inside ok
  | null | boolean | natural | text | table => cases ok

theorem steady_oneOf (dialect : Dialect) (choices : List (String × α)) :
    (oneOf dialect choices).Steady := by
  intro document writable value ok
  cases writable with
  | text => exact ok
  | null | boolean | natural | list => cases dialect <;> cases ok
  | @table entries distinct inside =>
      match entries with
      | [] => cases dialect <;> cases ok
      | _ :: _ :: _ => cases dialect <;> cases ok
      | [(name, content)] =>
          have single : ordered (.table [(name, content)]) = .table [(name, ordered content)] := rfl
          rw [oneOf] at ok
          obtain ⟨held, word, kept⟩ := bind_eq_ok ok
          obtain ⟨_, empty, made⟩ := bind_eq_ok kept
          have same := Dialect.noContent_eq_ok (inside _ List.mem_cons_self) empty
          rw [single, same, oneOf, word]
          exact kept

end Reader

end Rollout
