import Rollout.Proofs.Json.Grammar

/-! Both forms that the printer writes are texts of the document, and so both are read as the
document with its entries in order. -/

namespace Rollout.Json

theorem spells_boolean (value : Bool) :
    Spells (.value (.boolean value)) (scalar (.boolean value)).toList := by
  cases value
  · exact .no
  · exact .yes

theorem spells_natural {n : Nat} (small : n < UInt64.size) :
    Spells (.value (.integer n)) (scalar (.integer n)).toList := by
  have digits : (scalar (.integer n)).toList = Nat.toDigits 10 n := by
    rw [scalar]
    exact String.toList_ofList
  rw [digits]
  exact .natural small

/-! ### On one line -/

theorem spells_compactItems {items : List Document} (some : items ≠ [])
    (each : ∀ item ∈ items, Spells (.value item) (compact item).toList) :
    Spells (.items items) (compactItems items).toList := by
  induction items with
  | nil => exact absurd rfl some
  | cons item rest ih =>
      have first := each item List.mem_cons_self
      cases rest with
      | nil => exact .item first
      | cons next more =>
          have others := ih (List.cons_ne_nil next more) fun held member =>
            each held (List.mem_cons_of_mem item member)
          rw [compactItems, String.toList_append, String.toList_append, List.append_assoc]
          · exact .items first others
          · exact List.cons_ne_nil next more

theorem spells_compactEntries {entries : List (String × Document)} (some : entries ≠ [])
    (each : ∀ entry ∈ entries, Spells (.value entry.2) (compact entry.2).toList) :
    Spells (.entries entries) (compactEntries entries).toList := by
  induction entries with
  | nil => exact absurd rfl some
  | cons entry rest ih =>
      obtain ⟨key, value⟩ := entry
      have first := each (key, value) List.mem_cons_self
      cases rest with
      | nil =>
          rw [compactEntries, String.toList_append, String.toList_append, List.append_assoc]
          exact .entry key first
      | cons next more =>
          have others := ih (List.cons_ne_nil next more) fun held member =>
            each held (List.mem_cons_of_mem (key, value) member)
          rw [compactEntries]
          · simp only [String.toList_append, List.append_assoc]
            exact .entries key first others
          · exact List.cons_ne_nil next more

theorem spells_compact {document : Document} (writable : Writable document) :
    Spells (.value document) (compact document).toList := by
  induction writable with
  | null => exact .null
  | boolean value => exact spells_boolean value
  | natural small => exact spells_natural small
  | text value => exact .text value
  | @list items inside ih =>
      rw [compact, String.toList_append, String.toList_append, List.append_assoc]
      cases items with
      | nil => exact .emptyList
      | cons item rest => exact .list (spells_compactItems (List.cons_ne_nil item rest) ih)
  | @table entries distinct inside ih =>
      rw [compact, String.toList_append, String.toList_append, List.append_assoc]
      cases entries with
      | nil => exact .emptyTable
      | cons entry rest => exact .table (spells_compactEntries (List.cons_ne_nil entry rest) ih)

theorem read?_compact_iff {document : Document} (writable : Writable document) :
    read? (compact document) = some (ordered document) ↔ document.nesting < nestingLimit :=
  (spells_compact writable).read?_iff writable

/-! ### One item a line -/

theorem blank_indent (depth : Nat) : Blank (indent depth).toList := by
  intro c member
  rw [indent, String.toList_ofList] at member
  rw [List.eq_of_mem_replicate member]
  rfl

theorem blank_newline : Blank ['\n'] :=
  List.forall_mem_singleton.mpr rfl

theorem blank_space : Blank [' '] :=
  List.forall_mem_singleton.mpr rfl

theorem spells_prettyItems (depth : Nat) {items : List Document} (some : items ≠ [])
    (each : ∀ item ∈ items, Spells (.value item) (prettyAt depth item).toList) :
    Spells (.items items) (prettyItems depth items).toList := by
  induction items with
  | nil => exact absurd rfl some
  | cons item rest ih =>
      have first := (each item List.mem_cons_self).before (blank_indent depth)
      cases rest with
      | nil =>
          rw [prettyItems, String.toList_append]
          exact .item first
      | cons next more =>
          have others := ih (List.cons_ne_nil next more) fun held member =>
            each held (List.mem_cons_of_mem item member)
          rw [prettyItems]
          · simp only [String.toList_append, List.append_assoc]
            rw [← List.append_assoc]
            exact .items first (others.before blank_newline)
          · exact List.cons_ne_nil next more

theorem spells_prettyEntries (depth : Nat) {entries : List (String × Document)}
    (some : entries ≠ [])
    (each : ∀ entry ∈ entries, Spells (.value entry.2) (prettyAt depth entry.2).toList) :
    Spells (.entries entries) (prettyEntries depth entries).toList := by
  induction entries with
  | nil => exact absurd rfl some
  | cons entry rest ih =>
      obtain ⟨key, value⟩ := entry
      have first := (each (key, value) List.mem_cons_self).before blank_space
      cases rest with
      | nil =>
          rw [prettyEntries]
          simp only [String.toList_append, List.append_assoc]
          exact (Spells.entry key first).before (blank_indent depth)
      | cons next more =>
          have others := ih (List.cons_ne_nil next more) fun held member =>
            each held (List.mem_cons_of_mem (key, value) member)
          rw [prettyEntries]
          · simp only [String.toList_append, List.append_assoc]
            exact (Spells.entries key first (others.before blank_newline)).before
              (blank_indent depth)
          · exact List.cons_ne_nil next more

theorem Spells.onLines {piece : Piece} {cs : List Char} (inside : Spells piece cs) (depth : Nat) :
    Spells piece ('\n' :: (cs ++ '\n' :: (indent depth).toList)) :=
  have close : Spells piece (cs ++ (['\n'] ++ (indent depth).toList)) :=
    .after (List.forall_mem_append.mpr ⟨blank_newline, blank_indent depth⟩) inside
  close.before blank_newline

theorem spells_prettyAt (depth : Nat) {document : Document} (writable : Writable document) :
    Spells (.value document) (prettyAt depth document).toList := by
  induction writable generalizing depth with
  | null =>
      simp only [prettyAt]
      exact .null
  | boolean value =>
      simp only [prettyAt]
      exact spells_boolean value
  | natural small =>
      simp only [prettyAt]
      exact spells_natural small
  | text value =>
      simp only [prettyAt]
      exact .text value
  | @list items inside ih =>
      cases items with
      | nil =>
          rw [prettyAt]
          exact .emptyList
      | cons item rest =>
          have spells := spells_prettyItems (depth + 1) (List.cons_ne_nil item rest)
            fun held member => ih held member (depth + 1)
          have list := Spells.list (spells.onLines depth)
          rw [List.cons_append, List.append_assoc, List.cons_append] at list
          rw [prettyAt]
          · simp only [String.toList_append, List.append_assoc]
            exact list
          · exact List.cons_ne_nil item rest
  | @table entries distinct inside ih =>
      cases entries with
      | nil =>
          rw [prettyAt]
          exact .emptyTable
      | cons entry rest =>
          have spells := spells_prettyEntries (depth + 1) (List.cons_ne_nil entry rest)
            fun held member => ih held member (depth + 1)
          have table := Spells.table (spells.onLines depth)
          rw [List.cons_append, List.append_assoc, List.cons_append] at table
          rw [prettyAt]
          · simp only [String.toList_append, List.append_assoc]
            exact table
          · exact List.cons_ne_nil entry rest

theorem read?_pretty_iff {document : Document} (writable : Writable document) :
    read? (pretty document) = some (ordered document) ↔ document.nesting < nestingLimit :=
  (spells_prettyAt 0 writable).read?_iff writable

end Rollout.Json
