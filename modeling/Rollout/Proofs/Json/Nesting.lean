import Rollout.Proofs.Json.Order

/-! How deeply documents are nested.  Nothing that is read from a text reaches the limit, by
induction on the steps of the reader; and to put the entries of tables in order takes nothing away
from the nesting. -/

namespace Rollout.Json

open Document (get? nestingOfEntries nestingOfItems)

/-! ### In order -/

theorem nestingOfItems_le {items : List Document} {bound : Nat}
    (each : ∀ item ∈ items, item.nesting ≤ bound) : nestingOfItems items ≤ bound := by
  induction items with
  | nil => exact Nat.zero_le bound
  | cons item rest ih =>
      rw [List.forall_mem_cons] at each
      exact Nat.max_le.mpr ⟨each.1, ih each.2⟩

theorem nestingOfEntries_le {entries : List (String × Document)} {bound : Nat}
    (each : ∀ entry ∈ entries, entry.2.nesting ≤ bound) : nestingOfEntries entries ≤ bound := by
  induction entries with
  | nil => exact Nat.zero_le bound
  | cons entry rest ih =>
      rw [List.forall_mem_cons] at each
      exact Nat.max_le.mpr ⟨each.1, ih each.2⟩

theorem nesting_le_ordered {document : Document} (writable : Writable document) :
    document.nesting ≤ (ordered document).nesting := by
  induction writable with
  | null | boolean | natural | text => exact Nat.le_refl _
  | list inside ih =>
      rw [ordered, orderedItems_eq_map, Document.nesting, Document.nesting]
      apply Nat.succ_le_succ
      apply nestingOfItems_le
      intro item member
      exact Nat.le_trans (ih item member)
        (Document.nesting_le_nestingOfItems (List.mem_map_of_mem member))
  | table distinct inside ih =>
      rw [ordered, Document.nesting, Document.nesting]
      apply Nat.succ_le_succ
      apply nestingOfEntries_le
      intro entry member
      have found := get?_orderedEntries distinct entry.1 []
      rw [get?_of_mem distinct member] at found
      exact Nat.le_trans (ih entry member)
        (Document.nesting_le_nestingOfEntries (mem_of_get? found))

/-! ### As it is read -/

theorem nesting_of_numberValue? {negative : Bool} {whole : List Char}
    {fraction : Option (List Char)} {exponent : Option Int} {document : Document}
    (value : numberValue? negative whole fraction exponent = some document) :
    document.nesting = 0 := by
  unfold numberValue? at value
  simp only at value
  split at value
  · cases value
    rfl
  · split at value
    · cases value
      rfl
    · obtain ⟨magnitude, _, rfl⟩ := Option.map_eq_some_iff.mp value
      rfl

theorem nesting_of_number? {s rest : List Char} {document : Document}
    (read : number? s = some (document, rest)) : document.nesting = 0 := by
  simp only [number?, Option.bind_eq_bind, Option.bind_eq_some_iff] at read
  obtain ⟨_, _, _, _, _, _, value, found, same⟩ := read
  cases same
  exact nesting_of_numberValue? found

theorem nestingOfEntries_insertEntry_le {key : String} {value : Document}
    {entries : List (String × Document)} {bound : Nat} (first : value.nesting ≤ bound)
    (others : nestingOfEntries entries ≤ bound) :
    nestingOfEntries (insertEntry key value entries) ≤ bound := by
  induction entries with
  | nil => exact Nat.max_le.mpr ⟨first, others⟩
  | cons entry rest ih =>
      obtain ⟨name, held⟩ := entry
      obtain ⟨here, later⟩ := Nat.max_le.mp others
      rw [insertEntry]
      split
      · exact Nat.max_le.mpr ⟨first, others⟩
      · split
        · exact Nat.max_le.mpr ⟨first, later⟩
        · exact Nat.max_le.mpr ⟨here, ih later⟩

structure Fits (levels fuel : Nat) : Prop where
  value : ∀ {s document rest}, valueWithin levels fuel s = some (document, rest) →
    document.nesting ≤ levels
  items : ∀ {s items rest}, itemsWithin levels fuel s = some (items, rest) →
    nestingOfItems items ≤ levels
  entries : ∀ {seen s entries rest}, nestingOfEntries seen ≤ levels →
    entriesWithin levels fuel seen s = some (entries, rest) → nestingOfEntries entries ≤ levels

theorem Fits.value_succ {fuel : Nat} (fits : ∀ levels, Fits levels fuel) {levels : Nat}
    {s rest : List Char} {document : Document}
    (read : valueWithin levels (fuel + 1) s = some (document, rest)) :
    document.nesting ≤ levels := by
  rw [valueWithin] at read
  split at read
  · cases read
    exact Nat.zero_le levels
  · cases read
    exact Nat.zero_le levels
  · cases read
    exact Nat.zero_le levels
  · obtain ⟨_, _, same⟩ := Option.map_eq_some_iff.mp read
    cases same
    exact Nat.zero_le levels
  · split at read
    · cases read
    · split at read
      · cases read
        exact Nat.le_add_left 1 _
      · obtain ⟨_, found, same⟩ := Option.map_eq_some_iff.mp read
        cases same
        exact Nat.succ_le_succ ((fits _).items found)
  · split at read
    · cases read
    · split at read
      · cases read
        exact Nat.le_add_left 1 _
      · obtain ⟨_, found, same⟩ := Option.map_eq_some_iff.mp read
        cases same
        exact Nat.succ_le_succ ((fits _).entries (Nat.zero_le _) found)
  · rw [nesting_of_number? read]
    exact Nat.zero_le levels

theorem Fits.items_succ {levels fuel : Nat} (fits : Fits levels fuel) {s rest : List Char}
    {items : List Document} (read : itemsWithin levels (fuel + 1) s = some (items, rest)) :
    nestingOfItems items ≤ levels := by
  simp only [itemsWithin, Option.bind_eq_bind, Option.bind_eq_some_iff] at read
  obtain ⟨⟨item, left⟩, first, read⟩ := read
  split at read
  · obtain ⟨_, found, same⟩ := Option.bind_eq_some_iff.mp read
    cases same
    exact Nat.max_le.mpr ⟨fits.value first, fits.items found⟩
  · cases read
    exact Nat.max_le.mpr ⟨fits.value first, Nat.zero_le levels⟩
  · cases read

theorem Fits.entries_succ {levels fuel : Nat} (fits : Fits levels fuel) {s rest : List Char}
    {seen entries : List (String × Document)} (before : nestingOfEntries seen ≤ levels)
    (read : entriesWithin levels (fuel + 1) seen s = some (entries, rest)) :
    nestingOfEntries entries ≤ levels := by
  simp only [entriesWithin, Option.bind_eq_bind, Option.bind_eq_some_iff] at read
  obtain ⟨⟨key, left⟩, _, read⟩ := read
  split at read
  · obtain ⟨⟨value, left⟩, first, read⟩ := Option.bind_eq_some_iff.mp read
    have inserted : nestingOfEntries (insertEntry key value seen) ≤ levels :=
      nestingOfEntries_insertEntry_le (fits.value first) before
    simp only at read
    split at read
    · exact fits.entries inserted read
    · cases read
      exact inserted
    · cases read
  · cases read

theorem fits (fuel : Nat) : ∀ levels, Fits levels fuel := by
  induction fuel with
  | zero => exact fun levels => ⟨nofun, nofun, fun _ read => nomatch read⟩
  | succ fuel ih =>
      exact fun levels => ⟨Fits.value_succ ih, (ih levels).items_succ, (ih levels).entries_succ⟩

theorem nesting_lt_of_read? {text : String} {document : Document}
    (read : read? text = some document) : document.nesting < nestingLimit := by
  simp only [read?, Option.bind_eq_bind, Option.bind_eq_some_iff] at read
  obtain ⟨⟨found, rest⟩, within, read⟩ := read
  split at read
  · cases read
    exact Nat.lt_of_le_sub_one (by decide) ((fits _ _).value within)
  · cases read

end Rollout.Json
