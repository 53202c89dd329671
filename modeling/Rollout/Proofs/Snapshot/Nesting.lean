import Rollout.Proofs.Snapshot.RoundTrip

/-! How deeply the document of a tree is nested: by two for each level of the tree, and so not
much for that of a plan.  A tree that was read from a document is not written deeper than it was.
-/

namespace Rollout

open Document (findKey? nestingOfEntries nestingOfItems momentKey)

/-! ### What is read from fields -/

namespace Reader

variable {α : Type} {read : Reader α}

theorem mem_of_mapM {items : List Document} {values : List α}
    (ok : items.mapM read = .ok values) :
    ∀ value ∈ values, ∃ item ∈ items, read item = .ok value := by
  induction items generalizing values with
  | nil =>
      cases ok
      exact nofun
  | cons item rest ih =>
      rw [List.mapM_cons] at ok
      obtain ⟨first, here, ok⟩ := bind_eq_ok ok
      obtain ⟨others, later, ok⟩ := bind_eq_ok ok
      cases ok
      intro value member
      rcases List.mem_cons.mp member with rfl | member
      · exact ⟨item, List.mem_cons_self, here⟩
      · obtain ⟨found, inRest, reads⟩ := ih later value member
        exact ⟨found, List.mem_cons_of_mem item inRest, reads⟩

theorem nesting_of_listOf {write : α → Document}
    (each : ∀ ⦃document value⦄, read document = .ok value →
      (write value).nesting ≤ document.nesting)
    {document : Document} {values : List α} (ok : listOf read document = .ok values) :
    (Document.list (values.map write)).nesting ≤ document.nesting := by
  have bounded {items : List Document} (ok : items.mapM read = .ok values) :
      nestingOfItems (values.map write) + 1 ≤ nestingOfItems items + 1 := by
    apply Nat.succ_le_succ
    apply Json.nestingOfItems_le
    intro item member
    obtain ⟨value, inValues, rfl⟩ := List.mem_map.mp member
    obtain ⟨source, inItems, reads⟩ := mem_of_mapM ok value inValues
    exact Nat.le_trans (each reads) (Document.nesting_le_nestingOfItems inItems)
  cases document with
  | null | boolean | integer | float | text | moment | table => cases ok
  | list items | tables items => exact bounded ok

theorem nesting_of_text {document : Document} {value : String} (_ : text document = .ok value) :
    (Document.text value).nesting ≤ document.nesting :=
  Nat.zero_le document.nesting

end Reader

namespace Fields

variable {α : Type} {fields : Fields} {name : String}

def nesting (fields : Fields) : Nat :=
  match fields.source with
  | .named entries => nestingOfEntries entries
  | .listed items => nestingOfItems items

theorem nesting_of_find? {rank : Nat} {document : Document}
    (found : fields.find? name = some (rank, document)) : document.nesting ≤ fields.nesting := by
  obtain ⟨shape, source⟩ := fields
  cases source with
  | named entries =>
      rw [find?_named] at found
      apply Document.nesting_le_nestingOfEntries
      apply Json.mem_of_get?
      rw [Json.get?_table, found]
      rfl
  | listed items =>
      rw [find?_listed] at found
      obtain ⟨item, there, same⟩ := Option.map_eq_some_iff.mp found
      cases same
      exact Document.nesting_le_nestingOfItems (List.mem_of_getElem? there)

theorem find?_of_required {read : Reader α} {value : α}
    (done : fields.required name read = .done value) : fields.find? name ≠ none := by
  intro missing
  rw [required, missing] at done
  exact absent_ne_done done

theorem nesting_of_withDefault {read : Reader α} {write : α → Document}
    (each : ∀ ⦃document value⦄, read document = .ok value →
      (write value).nesting ≤ document.nesting)
    {values : List α} (done : fields.withDefault name [] (Reader.listOf read) = .done values)
    (some : values.map write ≠ []) :
    (Document.list (values.map write)).nesting ≤ fields.nesting := by
  rw [withDefault] at done
  split at done
  · next rank document found =>
    have ok := Attempt.ofRead_eq_done done
    exact Nat.le_trans (Reader.nesting_of_listOf each ok) (nesting_of_find? found)
  · cases done
    exact absurd rfl some

end Fields

/-- The fields of a record are nested in it.  A date is not nested, but all that it has is a
field of its own. -/
theorem Dialect.record_eq_ok {α : Type} {dialect : Dialect} {shape : RecordShape}
    {build : Fields → Attempt α} {document : Document} {value : α} {name : String}
    (other : momentKey ≠ name)
    (needs : ∀ ⦃fields⦄, build fields = .done value → fields.find? name ≠ none)
    (read : dialect.record shape build document = .ok value) :
    ∃ fields : Fields, build fields = .done value ∧ fields.nesting < document.nesting := by
  cases document with
  | null | boolean | integer | float | text => cases read
  | moment written =>
      refine absurd ?_ (needs (Attempt.result_eq_ok read))
      rw [Fields.find?_named, findKey?, if_neg other]
      rfl
  | table entries => exact ⟨_, Attempt.result_eq_ok read, Nat.lt_succ_self _⟩
  | list items | tables items =>
      obtain ⟨held, built, fits⟩ := Reader.bind_eq_ok read
      have same : held = value := by
        split at fits
        · exact Except.ok.inj fits
        · cases fits
      subst same
      exact ⟨_, Attempt.result_eq_ok built, Nat.lt_succ_self _⟩

/-! ### Written no deeper than read -/

theorem TaskSnapshot.nesting_of_read {dialect : Dialect} {document : Document}
    {task : TaskSnapshot} (ok : read dialect document = .ok task) :
    task.toDocument.nesting ≤ document.nesting := by
  have needs : ∀ fields : Fields,
      TaskSnapshot.mk <$> fields.required "name" Reader.text
        <*> fields.required "task_id" Reader.text
        <*> fields.required "status" (Status.read dialect) = .done task →
      fields.find? "name" ≠ none := by
    intro fields built
    obtain ⟨_, _, built, _, _⟩ := Attempt.seq_eq_done built
    obtain ⟨_, _, built, _, _⟩ := Attempt.seq_eq_done built
    obtain ⟨_, built, _⟩ := Attempt.map_eq_done built
    exact Fields.find?_of_required built
  obtain ⟨fields, _, inside⟩ := Dialect.record_eq_ok (by decide) needs ok
  exact Nat.lt_of_le_of_lt (Nat.zero_le fields.nesting) inside

namespace Snapshot

variable {dialect : Dialect} {snapshot : Snapshot} {document : Document}

theorem nesting_of_readWithin {levels : Nat}
    (ok : readWithin dialect levels document = .ok snapshot) :
    snapshot.toDocument.nesting ≤ document.nesting := by
  induction levels generalizing snapshot document with
  | zero => cases ok
  | succ levels ih =>
      -- every field that is a list is nested in the record
      have parts : ∀ fields : Fields,
          node <$> fields.required "name" Reader.text
            <*> fields.required "status" (Status.read dialect)
            <*> fields.optional "strategy" (StrategyKind.read dialect)
            <*> fields.withDefault "errors" [] (Reader.listOf Reader.text)
            <*> fields.withDefault "children" [] (Reader.listOf (readWithin dialect levels))
            <*> fields.withDefault "tasks" [] (Reader.listOf (TaskSnapshot.read dialect)) =
              .done snapshot →
          fields.find? "name" ≠ none ∧ snapshot.toDocument.nesting ≤ fields.nesting + 1 := by
        intro fields built
        obtain ⟨_, tasks, built, readTasks, same⟩ := Attempt.seq_eq_done built
        obtain ⟨_, children, built, readChildren, same'⟩ := Attempt.seq_eq_done built
        obtain ⟨_, errors, built, readErrors, same''⟩ := Attempt.seq_eq_done built
        obtain ⟨_, strategy, built, _, rest⟩ := Attempt.seq_eq_done built
        obtain ⟨_, status, built, _, rest'⟩ := Attempt.seq_eq_done built
        obtain ⟨name, built, rest''⟩ := Attempt.map_eq_done built
        have named := Fields.find?_of_required built
        subst rest'' rest' rest same'' same' same
        refine ⟨named, ?_⟩
        rw [toDocument_node]
        apply Nat.succ_le_succ
        apply Json.nestingOfEntries_le
        refine forall_mem_content (p := fun value => value.nesting ≤ fields.nesting)
          (fun _ => Nat.zero_le fields.nesting) ?_
        rintro items some (rfl | rfl | rfl)
        · exact Fields.nesting_of_withDefault (fun _ _ => Reader.nesting_of_text) readErrors some
        · exact Fields.nesting_of_withDefault (fun _ _ => ih) readChildren some
        · exact Fields.nesting_of_withDefault (fun _ _ => TaskSnapshot.nesting_of_read) readTasks
            some
      obtain ⟨fields, built, inside⟩ :=
        Dialect.record_eq_ok (by decide) (fun fields built => (parts fields built).1) ok
      exact Nat.le_trans (parts fields built).2 inside

/-! ### Levels -/

mutual

def height : Snapshot → Nat
  | .node _ _ _ _ children _ => heightOfAll children + 1

def heightOfAll : List Snapshot → Nat
  | [] => 0
  | child :: rest => max (height child) (heightOfAll rest)

end

theorem height_le_heightOfAll {child : Snapshot} {children : List Snapshot}
    (member : child ∈ children) : child.height ≤ heightOfAll children := by
  induction children with
  | nil => cases member
  | cons first rest ih =>
      rw [heightOfAll]
      rcases List.mem_cons.mp member with rfl | inRest
      · exact Nat.le_max_left _ _
      · exact Nat.le_trans (ih inRest) (Nat.le_max_right _ _)

theorem nesting_toDocument_le (snapshot : Snapshot) :
    snapshot.toDocument.nesting ≤ 2 * snapshot.height + 1 := by
  induction snapshot using nodeInduction with
  | atNode name status strategy errors children tasks ih =>
      rw [toDocument_node, Document.nesting, height]
      apply Nat.succ_le_succ
      apply Json.nestingOfEntries_le
      refine forall_mem_content (p := fun value => value.nesting ≤ 2 * (heightOfAll children + 1))
        (fun _ => Nat.zero_le _) ?_
      have listed {items : List Document} {bound : Nat}
          (each : ∀ item ∈ items, item.nesting ≤ bound)
          (small : bound ≤ 2 * heightOfAll children + 1) :
          (Document.list items).nesting ≤ 2 * (heightOfAll children + 1) :=
        Nat.succ_le_succ (Nat.le_trans (Json.nestingOfItems_le each) small)
      rintro items - (rfl | rfl | rfl)
      · exact listed (List.forall_mem_map.mpr fun _ _ => Nat.le_refl 0) (by omega)
      · refine listed (List.forall_mem_map.mpr fun child member => ?_) (Nat.le_refl _)
        have inside := ih child member
        have above := height_le_heightOfAll member
        omega
      · exact listed (List.forall_mem_map.mpr fun _ _ => Nat.le_refl 1) (by omega)

theorem heightOfAll_map_le {α : Type} {take : α → Snapshot} {parts : List α} {bound : Nat}
    (each : ∀ part ∈ parts, (take part).height ≤ bound) :
    heightOfAll (parts.map take) ≤ bound := by
  induction parts with
  | nil => exact Nat.zero_le bound
  | cons part rest ih =>
      rw [List.forall_mem_cons] at each
      exact Nat.max_le.mpr ⟨each.1, ih each.2⟩

theorem height_snapshot_le {α : Type} [Leaf α] (plan : Plan α) (arrangement : Arrangement) :
    (plan.snapshot arrangement).height ≤ 3 :=
  Nat.succ_le_succ (heightOfAll_map_le fun _ _ =>
    Nat.succ_le_succ (heightOfAll_map_le fun _ _ => Nat.le_refl 1))

end Snapshot

end Rollout
