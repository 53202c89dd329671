import Rollout.Json.Reader

/-! The order of entries.  Text of a table is read into entries in the order of their keys; where
each key stands once, every key keeps its value. -/

namespace Rollout.Json

open Document (get? findKey?)

mutual

/-- A document as it comes out of its text: with the entries of tables by their keys. -/
def ordered : Document → Document
  | .list items => .list (orderedItems items)
  | .table entries => .table (orderedEntries [] entries)
  | document => document

def orderedItems : List Document → List Document
  | [] => []
  | item :: rest => ordered item :: orderedItems rest

def orderedEntries (seen : List (String × Document)) :
    List (String × Document) → List (String × Document)
  | [] => seen
  | (key, value) :: rest => orderedEntries (insertEntry key (ordered value) seen) rest

end

/-- Documents that are kept by JSON text: without floats, without the forms of other formats,
and with each key once in its table. -/
inductive Writable : Document → Prop where
  | null : Writable .null
  | boolean (value : Bool) : Writable (.boolean value)
  | natural {n : Nat} (small : n < UInt64.size) : Writable (.integer n)
  | text (value : String) : Writable (.text value)
  | list {items : List Document} (inside : ∀ item ∈ items, Writable item) :
      Writable (.list items)
  | table {entries : List (String × Document)} (distinct : (entries.map (·.1)).Nodup)
      (inside : ∀ entry ∈ entries, Writable entry.2) : Writable (.table entries)

theorem orderedItems_eq_map (items : List Document) : orderedItems items = items.map ordered := by
  induction items with
  | nil => rfl
  | cons item rest ih => rw [orderedItems, ih, List.map_cons]

/-! ### Values by their keys -/

theorem get?_table (key : String) (entries : List (String × Document)) :
    get? key (.table entries) = (findKey? key entries).map (·.2) := rfl

theorem get?_cons (key name : String) (value : Document) (rest : List (String × Document)) :
    get? key (.table ((name, value) :: rest)) =
      if name = key then some value else get? key (.table rest) := by
  rw [get?_table, findKey?]
  split
  · rfl
  · rw [Option.map_map]
    rfl

theorem get?_insertEntry (key wanted : String) (value : Document)
    (entries : List (String × Document)) :
    get? wanted (.table (insertEntry key value entries)) =
      if key = wanted then some value else get? wanted (.table entries) := by
  induction entries with
  | nil => rw [insertEntry, get?_cons]
  | cons entry rest ih =>
      obtain ⟨name, held⟩ := entry
      rw [insertEntry]
      split
      · rw [get?_cons]
      · split
        · next same =>
          subst same
          rw [get?_cons, get?_cons]
          split <;> rfl
        · next different =>
          rw [get?_cons, get?_cons, ih]
          by_cases here : name = wanted
          · subst here
            rw [if_pos rfl, if_neg different, if_pos rfl]
          · rw [if_neg here, if_neg here]

theorem get?_eq_none {key : String} {entries : List (String × Document)}
    (absent : key ∉ entries.map (·.1)) : get? key (.table entries) = none := by
  induction entries with
  | nil => rfl
  | cons entry rest ih =>
      rw [List.map_cons, List.mem_cons, not_or] at absent
      rw [get?_cons, if_neg (Ne.symm absent.1), ih absent.2]

/-- Every key has its own value, and before that what it had among the entries seen. -/
theorem get?_orderedEntries {entries : List (String × Document)}
    (distinct : (entries.map (·.1)).Nodup) (key : String) (seen : List (String × Document)) :
    get? key (.table (orderedEntries seen entries)) =
      ((get? key (.table entries)).map ordered).or (get? key (.table seen)) := by
  induction entries generalizing seen with
  | nil => rfl
  | cons entry rest ih =>
      obtain ⟨name, value⟩ := entry
      obtain ⟨apart, others⟩ := List.nodup_cons.mp distinct
      rw [orderedEntries, ih others, get?_cons, get?_insertEntry]
      by_cases here : name = key
      · subst here
        rw [get?_eq_none apart, if_pos rfl, if_pos rfl]
        rfl
      · rw [if_neg here, if_neg here]

theorem mem_of_get? {key : String} {value : Document} {entries : List (String × Document)}
    (found : get? key (.table entries) = some value) : (key, value) ∈ entries := by
  induction entries with
  | nil => cases found
  | cons entry rest ih =>
      obtain ⟨name, held⟩ := entry
      rw [get?_cons] at found
      split at found
      · next same =>
        cases found
        rw [same]
        exact List.mem_cons_self
      · exact List.mem_cons_of_mem _ (ih found)

theorem get?_of_mem {key : String} {value : Document} {entries : List (String × Document)}
    (distinct : (entries.map (·.1)).Nodup) (member : (key, value) ∈ entries) :
    get? key (.table entries) = some value := by
  induction entries with
  | nil => cases member
  | cons entry rest ih =>
      obtain ⟨name, held⟩ := entry
      obtain ⟨apart, others⟩ := List.nodup_cons.mp distinct
      rw [get?_cons]
      rcases List.mem_cons.mp member with same | inRest
      · cases same
        exact if_pos rfl
      · rw [if_neg, ih others inRest]
        rintro rfl
        exact apart (List.mem_map.mpr ⟨(name, value), inRest, rfl⟩)

end Rollout.Json
