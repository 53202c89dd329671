import Rollout.Proofs.Toml.Numerals

/-! A written text is read line by line: its statements are what its lines stand for.  Each line
is written with the end of its line, so what follows it never matters to how it is read. -/

namespace Rollout.Toml

/-! ### Values -/

theorem writeText_eq_cons (s : String) :
    ∃ tail, writeText s = '"' :: tail ∨ writeText s = '\x27' :: tail := by
  unfold writeText
  cases StringForm.choose s.toList with
  | basic => exact ⟨_, .inl rfl⟩
  | literal => exact ⟨_, .inr rfl⟩
  | basicBlock => exact ⟨_, .inl rfl⟩
  | literalBlock => exact ⟨_, .inr rfl⟩

theorem value?_text (s : String) (rest : List Char) :
    value? (writeText s ++ '\n' :: rest) = some (.text s, '\n' :: rest) := by
  have read := string?_writeText s rest
  obtain ⟨tail, same⟩ := writeText_eq_cons s
  have scalar : value? (writeText s ++ '\n' :: rest) =
      (string? (writeText s ++ '\n' :: rest)).map fun found =>
        (.text (String.ofList found.1), found.2) := by
    rcases same with same | same
    · rw [same]
      rfl
    · rw [same]
      rfl
  rw [scalar, read, Option.map_some, String.ofList_toList]

theorem value?_natural {n : Nat} (fits : inRange n = true) (rest : List Char) :
    value? (Nat.toDigits 10 n ++ '\n' :: rest) = some (.integer n, '\n' :: rest) := by
  have plain := Text.digits_toDigits n
  have bracket := ne_cons_of_digits plain rest (c := '[') rfl (by decide)
  have brace := ne_cons_of_digits plain rest (c := '\x7b') rfl (by decide)
  rw [value?, valueWithin.eq_5 _ _ (fun tail _ => bracket tail) (fun tail _ => brace tail)
      (fun _ tail _ => bracket tail) (fun _ tail _ => brace tail),
    scalar?.eq_5 _ (fun _ => ne_cons_of_digits plain rest rfl (by decide) _)
      (fun _ => ne_cons_of_digits plain rest rfl (by decide) _)
      (ne_cons_of_digits plain rest rfl (by decide))
      (ne_cons_of_digits plain rest rfl (by decide)),
    number?_toDigits fits]

theorem value?_write {value : Scalar} (writable : value.isWritable = true) (rest : List Char) :
    value? (value.write ++ '\n' :: rest) = some (value.toDocument, '\n' :: rest) := by
  cases value with
  | text s => exact value?_text s rest
  | natural n => exact value?_natural writable rest
  | emptyList => rfl

theorem skipBlanks_write (value : Scalar) (rest : List Char) :
    skipBlanks (value.write ++ rest) = value.write ++ rest := by
  cases value with
  | text s =>
      obtain ⟨tail, same | same⟩ := writeText_eq_cons s
      · rw [Scalar.write, same, List.cons_append, skipBlanks_cons rfl]
      · rw [Scalar.write, same, List.cons_append, skipBlanks_cons rfl]
  | natural n =>
      obtain ⟨c, tail, same, digit⟩ := Text.exists_toDigits_eq_cons n
      have shown : isBlank c = false := by
        rw [isBlank, Bool.or_eq_false_iff, beq_eq_false_iff_ne, beq_eq_false_iff_ne]
        exact ⟨Text.ne_of_isDigit digit (by decide), Text.ne_of_isDigit digit (by decide)⟩
      rw [Scalar.write, same, List.cons_append, skipBlanks_cons shown]
  | emptyList => rfl

/-! ### Lines -/

/-- The path of a header has at least one part, and not more than a reader takes. -/
def Line.isAddressed : Line → Bool
  | .assign _ _ => true
  | .header path => path ≠ [] && path.length < nestingLimit
  | .item path => path ≠ [] && path.length < nestingLimit

def Line.Readable (line : Line) : Prop :=
  line.isWritable = true ∧ line.isAddressed = true

namespace Line

def Opens (c : Char) : Prop :=
  c = '[' ∨ OpensKey c

theorem Opens.ne {c d : Char} (opens : Opens c) (bracket : d ≠ '[')
    (bare : isBareKeyChar d = false) (notQuote : d ≠ '"') (notApostrophe : d ≠ '\x27') :
    c ≠ d := by
  rcases opens with opens | opens
  · rintro rfl
    exact bracket opens
  · exact opens.ne bare notQuote notApostrophe

theorem Opens.isBlank {c : Char} (opens : Opens c) : isBlank c = false := by
  rcases opens with rfl | opens
  · rfl
  · exact opens.isBlank

theorem Opens.lineEnd? {c : Char} (opens : Opens c) (rest : List Char) :
    lineEnd? (c :: rest) = none := by
  have hash := opens.ne (d := '#') (by decide) rfl (by decide) (by decide)
  have feed := opens.ne (d := '\n') (by decide) rfl (by decide) (by decide)
  have back := opens.ne (d := '\r') (by decide) rfl (by decide) (by decide)
  rw [Toml.lineEnd?, skipBlanks_cons opens.isBlank, skipComment.eq_2 _ (by simp [hash])]
  exact newline?.eq_3 _ (by simp [feed]) (by simp [back])

theorem write_eq_cons (line : Line) : ∃ c tail, line.write = c :: tail ∧ Opens c := by
  cases line with
  | assign key value =>
      obtain ⟨c, tail, same, opens⟩ := writeKeyPart_eq_cons key
      exact ⟨c, _, by rw [write, same, List.cons_append, List.cons_append, List.cons_append],
        .inr opens⟩
  | header path => exact ⟨'[', _, rfl, .inl rfl⟩
  | item path => exact ⟨'[', _, rfl, .inl rfl⟩

theorem scan?_write {line : Line} (readable : line.Readable) (rest : List Char) :
    Statement.scan? (line.write ++ rest) = some (line.statement, rest) := by
  obtain ⟨writable, addressed⟩ := readable
  cases line with
  | assign key value =>
      obtain ⟨c, tail, same, opens⟩ := writeKeyPart_eq_cons key
      have noBracket := opens.ne (d := '[') rfl (by decide) (by decide)
      have written : (assign key value).write ++ rest =
          writeKey [key] ++ ' ' :: '=' :: ' ' :: (value.write ++ '\n' :: rest) := by
        simp only [write, writeKey, List.append_assoc, List.cons_append, List.nil_append]
      have read : key? (writeKey [key] ++ ' ' :: '=' :: ' ' :: (value.write ++ '\n' :: rest)) =
          some ([key], '=' :: ' ' :: (value.write ++ '\n' :: rest)) :=
        key?_writeKey (List.cons_ne_nil key []) (by simp [nestingLimit]) rfl
          fun _ same => by cases same
      have blank : skipBlanks (' ' :: (value.write ++ '\n' :: rest)) =
          value.write ++ '\n' :: rest := skipBlanks_write value _
      rw [written, Statement.scan?.eq_3 _ (by simp [writeKey, same, noBracket])
        (by simp [writeKey, same, noBracket]), read]
      simp only [Option.bind_eq_bind, Option.bind_some, blank, value?_write writable]
      rfl
  | header path =>
      simp only [isAddressed, Bool.and_eq_true, decide_eq_true_eq] at addressed
      obtain ⟨nonempty, enough⟩ := addressed
      obtain ⟨c, tail, same, opens⟩ := writeKey_eq_cons nonempty
      have noBracket := opens.ne (d := '[') rfl (by decide) (by decide)
      have read : key? (writeKey path ++ ']' :: '\n' :: rest) = some (path, ']' :: '\n' :: rest) :=
        key?_writeKey nonempty enough rfl fun _ same => by cases same
      rw [write, List.cons_append, List.append_assoc,
        Statement.scan?.eq_2 _ (by simp [same, noBracket]), List.cons_append, List.cons_append,
        List.nil_append, read]
      rfl
  | item path =>
      simp only [isAddressed, Bool.and_eq_true, decide_eq_true_eq] at addressed
      obtain ⟨nonempty, enough⟩ := addressed
      have read : key? (writeKey path ++ ']' :: ']' :: '\n' :: rest) =
          some (path, ']' :: ']' :: '\n' :: rest) :=
        key?_writeKey nonempty enough rfl fun _ same => by cases same
      rw [write, List.cons_append, List.cons_append, List.append_assoc, Statement.scan?.eq_1,
        List.cons_append, List.cons_append, List.cons_append, List.nil_append, read]
      rfl

/-! ### Texts -/

/-- A line costs one unit of fuel and gives one statement. -/
theorem scanAllWithin_write {line : Line} (readable : line.Readable) (fuel : Nat)
    (rest : List Char) :
    Statement.scanAllWithin (fuel + 1) (line.write ++ rest) =
      (Statement.scanAllWithin fuel rest).map (line.statement :: ·) := by
  obtain ⟨c, tail, same, opens⟩ := line.write_eq_cons
  have read := scan?_write readable rest
  rw [same, List.cons_append] at read ⊢
  rw [Statement.scanAllWithin, skipBlanks_cons opens.isBlank]
  simp only [opens.lineEnd?, read, Option.bind_eq_bind, Option.bind_some]
  cases Statement.scanAllWithin fuel rest with
  | none => rfl
  | some statements => rfl

/-- Lines that follow others are read with as much fuel as they have characters: an empty
line costs one unit, and its line end is a character. -/
theorem scanAllWithin_writeAll {lines : List Line} (readable : ∀ line ∈ lines, line.Readable)
    {fuel : Nat} (enough : (writeAll lines).length < fuel) :
    Statement.scanAllWithin fuel (writeAll lines) = some (lines.map statement) := by
  induction lines generalizing fuel with
  | nil =>
      obtain ⟨fuel, rfl⟩ : ∃ less, fuel = less + 1 := ⟨fuel - 1, by omega⟩
      rfl
  | cons line lines ih =>
      have first := readable line List.mem_cons_self
      have others : ∀ {less}, (writeAll lines).length < less →
          Statement.scanAllWithin (less + 1) (line.write ++ writeAll lines) =
            some (line.statement :: lines.map statement) := by
        intro less room
        rw [scanAllWithin_write first,
          ih (fun other member => readable other (List.mem_cons_of_mem line member)) room]
        rfl
      obtain ⟨c, tail, same, opens⟩ := line.write_eq_cons
      rw [writeAll, List.append_assoc] at enough ⊢
      simp only [List.length_append, same, List.length_cons] at enough
      by_cases header : line.isHeader = true
      · rw [if_pos header] at enough ⊢
        rw [List.length_singleton] at enough
        obtain ⟨fuel, rfl⟩ : ∃ less, fuel = less + 1 + 1 := ⟨fuel - 2, by omega⟩
        exact others (by omega)
      · rw [if_neg header] at enough ⊢
        obtain ⟨fuel, rfl⟩ : ∃ less, fuel = less + 1 := ⟨fuel - 1, by omega⟩
        exact others (by omega)

theorem scanAll_writeText {lines : List Line} (readable : ∀ line ∈ lines, line.Readable) :
    Statement.scanAll (writeText lines) = some (lines.map statement) := by
  cases lines with
  | nil => rfl
  | cons line lines =>
      obtain ⟨c, tail, same, _⟩ := line.write_eq_cons
      rw [Statement.scanAll, writeText, scanAllWithin_write (readable line List.mem_cons_self),
        scanAllWithin_writeAll
          (fun other member => readable other (List.mem_cons_of_mem line member))
          (by rw [List.length_append, same, List.length_cons]; omega)]
      rfl

theorem skipMark_writeText (lines : List Line) : skipMark (writeText lines) = writeText lines := by
  cases lines with
  | nil => rfl
  | cons line lines =>
      obtain ⟨c, tail, same, opens⟩ := line.write_eq_cons
      have mark := opens.ne (d := '\uFEFF') (by decide) rfl (by decide) (by decide)
      exact skipMark.eq_2 _ (by simp [writeText, same, mark])

end Line

/-- Lines with written forms have a text, and it is read as the document that they define. -/
theorem read?_write {lines : List Line} (writable : lines.all Line.isWritable = true)
    (addressed : lines.all Line.isAddressed = true) :
    ∃ text, write lines = .ok text ∧ read? text = build? (lines.map Line.statement) := by
  have readable : ∀ line ∈ lines, line.Readable := fun line member =>
    ⟨List.all_eq_true.mp writable line member, List.all_eq_true.mp addressed line member⟩
  refine ⟨_, if_pos writable, ?_⟩
  rw [read?, String.toList_ofList, Line.skipMark_writeText, Line.scanAll_writeText readable]
  rfl

end Rollout.Toml
