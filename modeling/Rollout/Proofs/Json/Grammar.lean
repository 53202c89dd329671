import Mathlib.Data.List.DropRight
import Rollout.Proofs.Json.Nesting
import Rollout.Proofs.Json.Scalars

/-! The texts of a document, with blanks wherever they are allowed.  Every one of them is read as
the document with the entries of its tables in order; the induction is on the text, and what it
needs of the surroundings is what can stand behind a value or close a list.  Only a document that
is nested too deeply has no text that is read. -/

namespace Rollout.Json

open Text (ne_of_isDigit exists_toDigits_eq_cons)

/-! ### Blanks -/

def Blank (gap : List Char) : Prop :=
  ∀ c ∈ gap, isBlank c = true

theorem skipBlanks_append {gap : List Char} (blank : Blank gap) (rest : List Char) :
    skipBlanks (gap ++ rest) = skipBlanks rest :=
  List.dropWhile_append_of_pos blank

theorem skipBlanks_cons {c : Char} (solid : isBlank c = false) (rest : List Char) :
    skipBlanks (c :: rest) = c :: rest :=
  List.dropWhile_cons_of_neg (by simp [solid])

theorem skipBlanks_comma (rest : List Char) : skipBlanks (',' :: rest) = ',' :: rest :=
  skipBlanks_cons (by decide) rest

theorem skipBlanks_string (s : String) (rest : List Char) :
    skipBlanks ((string s).toList ++ rest) = (string s).toList ++ rest := by
  rw [toList_string]
  exact skipBlanks_cons (by decide) _

theorem skipBlanks_skipBlanks (s : List Char) : skipBlanks (skipBlanks s) = skipBlanks s :=
  List.dropWhile_idempotent isBlank s

theorem skipBlanks_append_of_cons {s tail : List Char} {c : Char}
    (opens : skipBlanks s = c :: tail) (rest : List Char) :
    skipBlanks (s ++ rest) = c :: (tail ++ rest) := by
  rw [skipBlanks] at opens
  rw [skipBlanks, List.dropWhile_append, opens]
  rfl

theorem valueWithin_skipBlanks (levels fuel : Nat) (s : List Char) :
    valueWithin levels fuel (skipBlanks s) = valueWithin levels fuel s := by
  cases fuel with
  | zero => rfl
  | succ fuel => rw [valueWithin, valueWithin, skipBlanks_skipBlanks]

theorem itemsWithin_skipBlanks (levels fuel : Nat) (s : List Char) :
    itemsWithin levels fuel (skipBlanks s) = itemsWithin levels fuel s := by
  cases fuel with
  | zero => rfl
  | succ fuel => rw [itemsWithin, itemsWithin, valueWithin_skipBlanks]

theorem entriesWithin_skipBlanks (levels fuel : Nat) (seen : List (String × Document))
    (s : List Char) :
    entriesWithin levels fuel seen (skipBlanks s) = entriesWithin levels fuel seen s := by
  cases fuel with
  | zero => rfl
  | succ fuel => rw [entriesWithin, entriesWithin, skipBlanks_skipBlanks]

/-! ### What stands behind a value -/

theorem mem_of_isBlank {c : Char} (blank : isBlank c = true) : c ∈ [' ', '\t', '\n', '\r'] := by
  simpa [isBlank, or_assoc] using blank

theorem Ends.append {gap : List Char} (blank : Blank gap) {rest : List Char} (ends : Ends rest) :
    Ends (gap ++ rest) := by
  cases gap with
  | nil => exact ends
  | cons first gap =>
      intro c tail same
      rw [← (List.cons.inj same).1]
      exact List.mem_append_left [',', ']', '\x7d']
        (mem_of_isBlank (blank first List.mem_cons_self))

theorem Ends.of_skipBlanks {s tail : List Char} {c : Char} (left : skipBlanks s = c :: tail)
    (stop : c ∈ [',', ']', '\x7d']) : Ends s := by
  rintro first rest rfl
  cases blank : isBlank first with
  | true => exact List.mem_append_left [',', ']', '\x7d'] (mem_of_isBlank blank)
  | false =>
      rw [skipBlanks_cons blank] at left
      rw [(List.cons.inj left).1]
      exact List.mem_append_right [' ', '\t', '\n', '\r'] stop

/-! ### Texts -/

/-- What a stretch of text writes: a value, or what stands between two brackets. -/
inductive Piece where
  | value (document : Document)
  | items (items : List Document)
  | entries (entries : List (String × Document))

inductive Spells : Piece → List Char → Prop where
  | null : Spells (.value .null) ['n', 'u', 'l', 'l']
  | yes : Spells (.value (.boolean true)) ['t', 'r', 'u', 'e']
  | no : Spells (.value (.boolean false)) ['f', 'a', 'l', 's', 'e']
  | natural {n : Nat} (small : n < UInt64.size) :
      Spells (.value (.integer n)) (Nat.toDigits 10 n)
  | text (s : String) : Spells (.value (.text s)) (string s).toList
  | emptyList : Spells (.value (.list [])) ['[', ']']
  | list {items : List Document} {cs : List Char} (inside : Spells (.items items) cs) :
      Spells (.value (.list items)) ('[' :: (cs ++ [']']))
  | emptyTable : Spells (.value (.table [])) ['\x7b', '\x7d']
  | table {entries : List (String × Document)} {cs : List Char}
      (inside : Spells (.entries entries) cs) :
      Spells (.value (.table entries)) ('\x7b' :: (cs ++ ['\x7d']))
  | item {document : Document} {cs : List Char} (inside : Spells (.value document) cs) :
      Spells (.items [document]) cs
  | items {document : Document} {rest : List Document} {cs others : List Char}
      (first : Spells (.value document) cs) (next : Spells (.items rest) others) :
      Spells (.items (document :: rest)) (cs ++ ',' :: others)
  | entry {document : Document} {cs : List Char} (key : String)
      (inside : Spells (.value document) cs) :
      Spells (.entries [(key, document)]) ((string key).toList ++ ':' :: cs)
  | entries {document : Document} {rest : List (String × Document)} {cs others : List Char}
      (key : String) (first : Spells (.value document) cs) (next : Spells (.entries rest) others) :
      Spells (.entries ((key, document) :: rest))
        ((string key).toList ++ ':' :: (cs ++ ',' :: others))
  | before {piece : Piece} {gap cs : List Char} (blank : Blank gap) (inside : Spells piece cs) :
      Spells piece (gap ++ cs)
  | after {piece : Piece} {gap cs : List Char} (blank : Blank gap) (inside : Spells piece cs) :
      Spells piece (cs ++ gap)

theorem isBlank_of_isDigit {c : Char} (digit : c.isDigit = true) : isBlank c = false := by
  have apart (mark : Char) (other : mark.isDigit = false) : c ≠ mark := ne_of_isDigit digit other
  simp [isBlank, apart ' ' (by decide), apart '\t' (by decide), apart '\n' (by decide),
    apart '\r' (by decide)]

theorem Spells.opens {piece : Piece} {cs : List Char} (spells : Spells piece cs) :
    ∃ c tail, skipBlanks cs = c :: tail ∧ c ≠ ']' ∧ c ≠ '\x7d' := by
  have solid {c : Char} (rest : List Char) (shown : isBlank c = false) (inside : c ≠ ']')
      (inner : c ≠ '\x7d') :
      ∃ first tail, skipBlanks (c :: rest) = first :: tail ∧ first ≠ ']' ∧ first ≠ '\x7d' :=
    ⟨c, rest, skipBlanks_cons shown rest, inside, inner⟩
  have extended {front : List Char} (rest : List Char)
      (opens : ∃ c tail, skipBlanks front = c :: tail ∧ c ≠ ']' ∧ c ≠ '\x7d') :
      ∃ c tail, skipBlanks (front ++ rest) = c :: tail ∧ c ≠ ']' ∧ c ≠ '\x7d' := by
    obtain ⟨c, tail, starts, others⟩ := opens
    exact ⟨c, tail ++ rest, skipBlanks_append_of_cons starts rest, others⟩
  induction spells with
  | null | yes | no | emptyList | list | emptyTable | table =>
      exact solid _ (by decide) (by decide) (by decide)
  | @natural n small =>
      obtain ⟨c, more, same, digit⟩ := exists_toDigits_eq_cons n
      rw [same]
      exact solid more (isBlank_of_isDigit digit) (ne_of_isDigit digit (by decide))
        (ne_of_isDigit digit (by decide))
  | text s | entry s | entries s =>
      rw [toList_string]
      exact solid _ (by decide) (by decide) (by decide)
  | item inside ih => exact ih
  | items first next ih => exact extended _ ih
  | before blank inside ih =>
      rw [skipBlanks_append blank]
      exact ih
  | after blank inside ih => exact extended _ ih

/-! ### Steps of the reader -/

variable {levels fuel : Nat}

theorem valueWithin_digit {c : Char} (digit : c.isDigit = true) (rest : List Char) :
    valueWithin levels (fuel + 1) (c :: rest) = number? (c :: rest) := by
  rw [valueWithin, skipBlanks_cons (isBlank_of_isDigit digit)]
  split
  · next same => exact absurd (List.cons.inj same).1 (ne_of_isDigit digit (by decide))
  · next same => exact absurd (List.cons.inj same).1 (ne_of_isDigit digit (by decide))
  · next same => exact absurd (List.cons.inj same).1 (ne_of_isDigit digit (by decide))
  · next same => exact absurd (List.cons.inj same).1 (ne_of_isDigit digit (by decide))
  · next same => exact absurd (List.cons.inj same).1 (ne_of_isDigit digit (by decide))
  · next same => exact absurd (List.cons.inj same).1 (ne_of_isDigit digit (by decide))
  · rfl

theorem valueWithin_natural {n : Nat} (small : n < UInt64.size) {rest : List Char}
    (ends : Ends rest) :
    valueWithin levels (fuel + 1) (Nat.toDigits 10 n ++ rest) = some (.integer n, rest) := by
  have read := number?_toDigits small ends
  obtain ⟨c, more, same, digit⟩ := exists_toDigits_eq_cons n
  rw [same] at read ⊢
  rw [List.cons_append, valueWithin_digit digit]
  exact read

theorem valueWithin_text (s : String) (rest : List Char) :
    valueWithin levels (fuel + 1) ((string s).toList ++ rest) = some (.text s, rest) := by
  have read := string?_string s rest
  rw [toList_string] at read ⊢
  rw [valueWithin, List.cons_append, skipBlanks_cons (by decide), ← List.cons_append]
  simp only [List.cons_append] at read ⊢
  rw [read]
  rfl

theorem valueWithin_list {s rest tail : List Char} {c : Char} {items : List Document}
    (opens : skipBlanks s = c :: tail) (inside : c ≠ ']')
    (read : itemsWithin levels fuel s = some (items, rest)) :
    valueWithin (levels + 1) (fuel + 1) ('[' :: s) = some (.list items, rest) := by
  rw [← itemsWithin_skipBlanks, opens] at read
  rw [valueWithin, skipBlanks_cons (by decide)]
  simp only [opens]
  split
  · next same => exact absurd (List.cons.inj same).1 inside
  · rw [read]
    rfl

theorem valueWithin_table {s rest tail : List Char} {c : Char}
    {entries : List (String × Document)} (opens : skipBlanks s = c :: tail) (inside : c ≠ '\x7d')
    (read : entriesWithin levels fuel [] s = some (entries, rest)) :
    valueWithin (levels + 1) (fuel + 1) ('\x7b' :: s) = some (.table entries, rest) := by
  rw [← entriesWithin_skipBlanks, opens] at read
  rw [valueWithin, skipBlanks_cons (by decide)]
  simp only [opens]
  split
  · next same => exact absurd (List.cons.inj same).1 inside
  · rw [read]
    rfl

section

variable {document : Document} {s left others rest : List Char}
  (first : valueWithin levels fuel s = some (document, left))

include first

theorem itemsWithin_last (closes : skipBlanks left = ']' :: rest) :
    itemsWithin levels (fuel + 1) s = some ([document], rest) := by
  rw [itemsWithin, first]
  simp only [Option.bind_eq_bind, Option.bind_some, closes]
  rfl

theorem itemsWithin_next (comma : skipBlanks left = ',' :: others) {items : List Document}
    (next : itemsWithin levels fuel others = some (items, rest)) :
    itemsWithin levels (fuel + 1) s = some (document :: items, rest) := by
  rw [itemsWithin, first]
  simp only [Option.bind_eq_bind, Option.bind_some, comma, next]
  rfl

variable (key : String) (seen : List (String × Document))

theorem entriesWithin_last (closes : skipBlanks left = '\x7d' :: rest) :
    entriesWithin levels (fuel + 1) seen ((string key).toList ++ ':' :: s) =
      some (insertEntry key document seen, rest) := by
  rw [entriesWithin, skipBlanks_string, string?_string]
  simp only [Option.bind_eq_bind, Option.bind_some, skipBlanks_cons (c := ':') (by decide), first,
    closes]
  rfl

theorem entriesWithin_next (comma : skipBlanks left = ',' :: others)
    {entries : List (String × Document)}
    (next : entriesWithin levels fuel (insertEntry key document seen) others =
      some (entries, rest)) :
    entriesWithin levels (fuel + 1) seen ((string key).toList ++ ':' :: s) =
      some (entries, rest) := by
  rw [entriesWithin, skipBlanks_string, string?_string]
  simp only [Option.bind_eq_bind, Option.bind_some, skipBlanks_cons (c := ':') (by decide), first,
    comma, next]

end

/-! ### Reading back -/

def Piece.nesting : Piece → Nat
  | .value document => document.nesting
  | .items listed => Document.nestingOfItems listed
  | .entries held => Document.nestingOfEntries held

/-- How a text of the piece is read: a value up to what ends it, and what stands between two
brackets up to the second one. -/
def Piece.ReadBack (levels : Nat) (cs : List Char) : Piece → Prop
  | .value document => ∀ fuel rest, 2 * cs.length ≤ fuel → Ends rest →
      ∃ left, valueWithin levels fuel (cs ++ rest) = some (ordered document, left) ∧
        skipBlanks left = skipBlanks rest
  | .items listed => ∀ fuel close rest, 2 * cs.length + 1 ≤ fuel →
      skipBlanks close = ']' :: rest →
      itemsWithin levels fuel (cs ++ close) = some (orderedItems listed, rest)
  | .entries held => ∀ fuel seen close rest, 2 * cs.length + 1 ≤ fuel →
      skipBlanks close = '\x7d' :: rest →
      entriesWithin levels fuel seen (cs ++ close) = some (orderedEntries seen held, rest)

theorem Piece.ReadBack.before {piece : Piece} {gap cs : List Char} (blank : Blank gap)
    (read : piece.ReadBack levels cs) : piece.ReadBack levels (gap ++ cs) := by
  cases piece with
  | value document =>
      intro fuel rest enough ends
      rw [List.length_append] at enough
      rw [List.append_assoc, ← valueWithin_skipBlanks, skipBlanks_append blank,
        valueWithin_skipBlanks]
      exact read fuel rest (by omega) ends
  | items listed =>
      intro fuel close rest enough closes
      rw [List.length_append] at enough
      rw [List.append_assoc, ← itemsWithin_skipBlanks, skipBlanks_append blank,
        itemsWithin_skipBlanks]
      exact read fuel close rest (by omega) closes
  | entries held =>
      intro fuel seen close rest enough closes
      rw [List.length_append] at enough
      rw [List.append_assoc, ← entriesWithin_skipBlanks, skipBlanks_append blank,
        entriesWithin_skipBlanks]
      exact read fuel seen close rest (by omega) closes

theorem Piece.ReadBack.after {piece : Piece} {gap cs : List Char} (blank : Blank gap)
    (read : piece.ReadBack levels cs) : piece.ReadBack levels (cs ++ gap) := by
  cases piece with
  | value document =>
      intro fuel rest enough ends
      rw [List.length_append] at enough
      obtain ⟨left, found, same⟩ := read fuel (gap ++ rest) (by omega) (ends.append blank)
      rw [List.append_assoc]
      exact ⟨left, found, same.trans (skipBlanks_append blank rest)⟩
  | items listed =>
      intro fuel close rest enough closes
      rw [List.length_append] at enough
      rw [List.append_assoc]
      exact read fuel (gap ++ close) rest (by omega) ((skipBlanks_append blank close).trans closes)
  | entries held =>
      intro fuel seen close rest enough closes
      rw [List.length_append] at enough
      rw [List.append_assoc]
      exact read fuel seen (gap ++ close) rest (by omega)
        ((skipBlanks_append blank close).trans closes)

/-- Every text of a piece is read as the piece, with as many levels as the piece has. -/
theorem Spells.readBack {piece : Piece} {cs : List Char} (spells : Spells piece cs) :
    ∀ levels, piece.nesting ≤ levels → piece.ReadBack levels cs := by
  induction spells with
  | null | yes | no =>
      rintro levels - (_ | fuel) rest enough ends
      · cases enough
      · exact ⟨rest, rfl, rfl⟩
  | emptyList | emptyTable =>
      rintro (_ | levels) fits (_ | fuel) rest enough ends
      · cases fits
      · cases fits
      · cases enough
      · exact ⟨rest, rfl, rfl⟩
  | @natural n small =>
      rintro levels - (_ | fuel) rest enough ends
      · have written := List.length_pos_of_ne_nil (Nat.toDigits_ne_nil (n := n) (b := 10))
        omega
      · exact ⟨rest, valueWithin_natural small ends, rfl⟩
  | text s =>
      rintro levels - (_ | fuel) rest enough ends
      · simp [toList_string] at enough
      · exact ⟨rest, valueWithin_text s rest, rfl⟩
  | list inside ih =>
      rintro (_ | levels) fits (_ | fuel) rest enough ends
      · cases fits
      · cases fits
      · simp at enough
      obtain ⟨c, tail, opens, inner, _⟩ := inside.opens
      have read := ih levels (Nat.le_of_succ_le_succ fits) fuel (']' :: rest) rest
        (by simp only [List.length_cons, List.length_append, List.length_nil] at enough; omega)
        (skipBlanks_cons (by decide) rest)
      refine ⟨rest, ?_, rfl⟩
      rw [List.cons_append, List.append_assoc]
      exact valueWithin_list (skipBlanks_append_of_cons opens _) inner read
  | table inside ih =>
      rintro (_ | levels) fits (_ | fuel) rest enough ends
      · cases fits
      · cases fits
      · simp at enough
      obtain ⟨c, tail, opens, _, inner⟩ := inside.opens
      have read := ih levels (Nat.le_of_succ_le_succ fits) fuel [] ('\x7d' :: rest) rest
        (by simp only [List.length_cons, List.length_append, List.length_nil] at enough; omega)
        (skipBlanks_cons (by decide) rest)
      refine ⟨rest, ?_, rfl⟩
      rw [List.cons_append, List.append_assoc]
      exact valueWithin_table (skipBlanks_append_of_cons opens _) inner read
  | item inside ih =>
      rintro levels fits (_ | fuel) close rest enough closes
      · cases enough
      obtain ⟨left, first, same⟩ := ih levels (Nat.max_le.mp fits).1 fuel close (by omega)
        (Ends.of_skipBlanks closes (by decide))
      exact itemsWithin_last first (same.trans closes)
  | items first next ihFirst ihNext =>
      rintro levels fits (_ | fuel) close rest enough closes
      · cases enough
      obtain ⟨fitsFirst, fitsNext⟩ := Nat.max_le.mp fits
      simp only [List.length_append, List.length_cons] at enough
      rw [List.append_assoc]
      obtain ⟨left, read, same⟩ := ihFirst levels fitsFirst fuel _ (by omega)
        (Ends.of_skipBlanks (skipBlanks_comma _) (by decide))
      exact itemsWithin_next read (same.trans (skipBlanks_comma _))
        (ihNext levels fitsNext fuel close rest (by omega) closes)
  | entry key inside ih =>
      rintro levels fits (_ | fuel) seen close rest enough closes
      · cases enough
      simp only [List.length_append, List.length_cons] at enough
      rw [List.append_assoc]
      obtain ⟨left, read, same⟩ := ih levels (Nat.max_le.mp fits).1 fuel close (by omega)
        (Ends.of_skipBlanks closes (by decide))
      exact entriesWithin_last read key seen (same.trans closes)
  | entries key first next ihFirst ihNext =>
      rintro levels fits (_ | fuel) seen close rest enough closes
      · cases enough
      obtain ⟨fitsFirst, fitsNext⟩ := Nat.max_le.mp fits
      simp only [List.length_append, List.length_cons] at enough
      rw [List.append_assoc, List.cons_append, List.append_assoc]
      obtain ⟨left, read, same⟩ := ihFirst levels fitsFirst fuel _ (by omega)
        (Ends.of_skipBlanks (skipBlanks_comma _) (by decide))
      exact entriesWithin_next read key seen (same.trans (skipBlanks_comma _))
        (ihNext levels fitsNext fuel _ close rest (by omega) closes)
  | before blank inside ih => exact fun levels fits => (ih levels fits).before blank
  | after blank inside ih => exact fun levels fits => (ih levels fits).after blank

/-- A text is read as its document exactly when the document is nested below the limit. -/
theorem Spells.read?_iff {document : Document} {text : String}
    (spells : Spells (.value document) text.toList) (writable : Writable document) :
    read? text = some (ordered document) ↔ document.nesting < nestingLimit := by
  constructor
  · exact fun read => Nat.lt_of_le_of_lt (nesting_le_ordered writable) (nesting_lt_of_read? read)
  intro fits
  have ends : Ends [] := fun _ _ same => nomatch same
  obtain ⟨left, read, same⟩ := spells.readBack (nestingLimit - 1) (Nat.le_sub_one_of_lt fits)
    (2 * text.toList.length + 2) [] (Nat.le_add_right _ 2) ends
  rw [List.append_nil] at read
  rw [read?, read]
  simp only [Option.bind_eq_bind, Option.bind_some, same]
  rfl

end Rollout.Json
