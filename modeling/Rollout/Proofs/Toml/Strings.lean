import Rollout.Toml.Written

/-! A written string is read back.  Each form has its own reader, and each reader takes the
content of its form one character at a time: a character that stands for itself, or an escape that
stands for it.  In blocks the delicate point is the quote, since three of them end the block and
up to two more may stand before those three. -/

namespace Rollout.Toml

open Text (hexDigits)

/-! ### Characters -/

/-- How a character stands in a string with escapes, apart from the quotes and line ends
that a block may hold as they are. -/
inductive Spelling (c : Char) : List Char → Prop where
  | plain (shown : isPlain c = true) (notQuote : c ≠ '"') (notEscape : c ≠ '\\') :
      Spelling c [c]
  | short {e : Char} (stands : escaped? e = some c) : Spelling c ['\\', e]
  | code {w x y z : Char} (stands : charOfHex? [w, x, y, z] = some c) :
      Spelling c ['\\', 'u', w, x, y, z]

theorem isPlain_of_needsEscape_eq_false {c : Char} (clean : needsEscape c = false)
    (sameLine : c ≠ '\n') : isPlain c = true := by
  by_cases tab : c = '\t'
  · subst tab
    rfl
  · simp only [needsEscape, isPlain, Bool.or_eq_false_iff, Bool.and_eq_false_iff,
      bne_eq_false_iff_eq, decide_eq_false_iff_not, beq_eq_false_iff_ne, tab, sameLine,
      Bool.or_eq_true, Bool.and_eq_true, decide_eq_true_eq, beq_iff_eq, or_false,
      false_or] at clean ⊢
    omega

theorem charOfHex?_codeEscape {c : Char} (control : needsEscape c = true) :
    charOfHex? ((hexDigits c.toNat 4).map Char.toUpper) = some c := by
  have small : c.toNat < 128 := by
    simp only [needsEscape, Bool.or_eq_true, Bool.and_eq_true, decide_eq_true_eq,
      beq_iff_eq] at control
    omega
  have ascii : ∀ n < 128,
      charOfHex? ((hexDigits n 4).map Char.toUpper) = some (Char.ofNat n) := by
    decide +kernel
  rw [ascii _ small, Char.ofNat_toNat]

theorem spelling_basicChar {c : Char} (notQuote : c ≠ '"') (sameLine : c ≠ '\n') :
    Spelling c (basicChar c) := by
  unfold basicChar
  split
  · exact .short rfl
  · exact .short rfl
  · exact .short rfl
  · exact .short rfl
  · exact .short rfl
  · next notEscape =>
    split
    · next control =>
      have stands := charOfHex?_codeEscape control
      simp only [codeEscape, hexDigits, List.map_cons, List.map_nil, List.nil_append,
        List.cons_append] at stands ⊢
      exact .code stands
    · next clean =>
      exact .plain (isPlain_of_needsEscape_eq_false (eq_false_of_ne_true clean)
        sameLine) notQuote notEscape

theorem ne_mark_of_escaped? {e c : Char} (stands : escaped? e = some c) :
    e ≠ 'u' ∧ e ≠ 'U' := by
  constructor
  all_goals
    rintro rfl
    cases stands

theorem Spelling.exists_cons {c : Char} {spelled : List Char} (spelling : Spelling c spelled) :
    ∃ d tail, spelled = d :: tail ∧ isPlain d = true ∧ d ≠ '"' := by
  cases spelling with
  | plain shown notQuote notEscape => exact ⟨c, [], rfl, shown, notQuote⟩
  | short stands => exact ⟨'\\', _, rfl, rfl, by decide⟩
  | code stands => exact ⟨'\\', _, rfl, rfl, by decide⟩

theorem Spelling.head_ne_quote {c : Char} {spelled : List Char} (spelling : Spelling c spelled)
    (rest : List Char) : (spelled ++ rest).head? ≠ some '"' := by
  obtain ⟨d, tail, rfl, _, notQuote⟩ := spelling.exists_cons
  simpa using notQuote

/-! ### Strings on one line -/

theorem basicBody_spelled {c : Char} {spelled rest chars after : List Char}
    (spelling : Spelling c spelled) (read : basicBody rest = some (chars, after)) :
    basicBody (spelled ++ rest) = some (c :: chars, after) := by
  cases spelling with
  | plain shown notQuote notEscape =>
      rw [List.singleton_append, basicBody.eq_5 c rest notQuote
        (fun _ _ _ _ _ same _ => notEscape same)
        (fun _ _ _ _ _ _ _ _ _ same _ => notEscape same)
        (fun _ _ same _ => notEscape same), read, shown, bne_iff_ne.mpr notEscape]
      rfl
  | short stands =>
      obtain ⟨notShort, notLong⟩ := ne_mark_of_escaped? stands
      rw [List.cons_append, List.singleton_append, basicBody.eq_4 _ rest
        (fun _ _ _ _ _ same _ => notShort same)
        (fun _ _ _ _ _ _ _ _ _ same _ => notLong same), stands, read]
      rfl
  | code stands =>
      rw [List.cons_append, List.cons_append, List.cons_append, List.cons_append,
        List.cons_append, List.singleton_append, basicBody.eq_2, stands, read]
      rfl

theorem basicContent_cons (c : Char) (rest : List Char) :
    ∃ spelled, Spelling c spelled ∧
      basicContent (c :: rest) = spelled ++ basicContent rest := by
  by_cases quote : c = '"'
  · subst quote
    exact ⟨['\\', '"'], .short rfl, basicContent.eq_2 rest⟩
  by_cases lineEnd : c = '\n'
  · subst lineEnd
    exact ⟨['\\', 'n'], .short rfl, basicContent.eq_3 rest⟩
  exact ⟨basicChar c, spelling_basicChar quote lineEnd,
    basicContent.eq_4 c rest quote lineEnd⟩

theorem basicBody_basicContent (s rest : List Char) :
    basicBody (basicContent s ++ '"' :: rest) = some (s, rest) := by
  induction s with
  | nil => rfl
  | cons c s ih =>
      obtain ⟨spelled, spelling, same⟩ := basicContent_cons c s
      rw [same, List.append_assoc]
      exact basicBody_spelled spelling ih

theorem holds_literal {s : List Char} (holds : StringForm.holds s .literal = true) :
    ∀ c ∈ s, isPlain c = true ∧ c ≠ '\x27' := by
  intro c member
  simp only [StringForm.holds, Bool.and_eq_true, Bool.not_eq_true', List.any_eq_false,
    List.contains_eq_mem, decide_eq_false_iff_not] at holds
  obtain ⟨⟨clean, unquoted⟩, oneLine⟩ := holds
  exact ⟨isPlain_of_needsEscape_eq_false (eq_false_of_ne_true (clean c member))
    (ne_of_mem_of_not_mem member oneLine), ne_of_mem_of_not_mem member unquoted⟩

theorem literalBody_content {s : List Char} (rest : List Char)
    (plain : ∀ c ∈ s, isPlain c = true ∧ c ≠ '\x27') :
    literalBody (s ++ '\x27' :: rest) = some (s, rest) := by
  induction s with
  | nil => rfl
  | cons c s ih =>
      obtain ⟨shown, unquoted⟩ := plain c List.mem_cons_self
      rw [List.cons_append, literalBody.eq_2 c _ unquoted, if_pos shown,
        ih fun other member => plain other (List.mem_cons_of_mem c member)]
      rfl

/-! ### Blocks -/

def leading (c : Char) (s : List Char) : Nat :=
  (s.takeWhile (· == c)).length

@[simp] theorem leading_cons_self (c : Char) (s : List Char) :
    leading c (c :: s) = leading c s + 1 := by
  simp [leading]

theorem leading_eq_zero {c : Char} {s : List Char} (other : s.head? ≠ some c) :
    leading c s = 0 := by
  cases s with
  | nil => rfl
  | cons d s =>
      have different : (d == c) = false := by simpa using other
      simp [leading, different]

/-- The block with escapes never has more than two quotes in a row. -/
theorem leading_basicBlockContent {quotes : Nat} (few : quotes ≤ 2) (s : List Char) :
    quotes + leading '"' (basicBlockContent quotes s) ≤ 2 := by
  induction s generalizing quotes with
  | nil => exact few
  | cons c s ih =>
      by_cases quote : c = '"'
      · subst quote
        rw [basicBlockContent.eq_2]
        split
        · next room =>
          have rest : quotes + 1 + leading '"' (basicBlockContent (quotes + 1) s) ≤ 2 :=
            ih (by omega)
          rw [leading_cons_self]
          omega
        · rw [leading_eq_zero (by simp)]
          omega
      by_cases lineEnd : c = '\n'
      · subst lineEnd
        rw [basicBlockContent.eq_3, leading_eq_zero (by simp)]
        omega
      · rw [basicBlockContent.eq_4 quotes c s quote lineEnd,
          leading_eq_zero ((spelling_basicChar quote lineEnd).head_ne_quote _)]
        omega

theorem le_longestRunFrom (c : Char) (running : Nat) (s : List Char) :
    running + leading c s ≤ longestRunFrom c running s := by
  induction s generalizing running with
  | nil => exact Nat.le_refl _
  | cons d s ih =>
      by_cases same : d = c
      · subst same
        have rest := ih (running + 1)
        rw [leading_cons_self, longestRunFrom, if_pos rfl]
        omega
      · rw [longestRunFrom, if_neg same, leading_eq_zero (by simpa using same)]
        omega

/-- The marks that end a block, at the end of a line. -/
def closing (quote : Char) (rest : List Char) : List Char :=
  quote :: quote :: quote :: '\n' :: rest

theorem not_two_of_leading_le_one {c : Char} {s : List Char} (few : leading c s ≤ 1)
    (nonempty : s ≠ []) (other : s ≠ [c]) (rest more : List Char) :
    s ++ rest ≠ c :: c :: more := by
  rintro same
  match s, nonempty, other with
  | [d], _, other =>
      rw [List.singleton_append, List.cons.injEq] at same
      exact other (by rw [same.1])
  | d :: e :: s, _, _ =>
      simp only [List.cons_append, List.cons.injEq] at same
      rw [same.1, same.2.1, leading_cons_self, leading_cons_self] at few
      omega

theorem basicBlockBody_spelled {c : Char} {spelled rest chars after : List Char}
    (spelling : Spelling c spelled) (read : basicBlockBody false rest = some (chars, after)) :
    basicBlockBody false (spelled ++ rest) = some (c :: chars, after) := by
  cases spelling with
  | plain shown notQuote notEscape =>
      have notReturn : c ≠ '\r' := by
        rintro rfl
        cases shown
      have sameLine : c ≠ '\n' := by
        rintro rfl
        cases shown
      rw [List.singleton_append, basicBlockBody.eq_9 false c rest
        (fun _ same _ => notQuote same) (fun _ same _ => notQuote same)
        (fun _ same _ => notQuote same) (fun _ _ _ _ _ same _ => notEscape same)
        (fun _ _ _ _ _ _ _ _ _ same _ => notEscape same)
        (fun _ _ same _ => notEscape same) (fun _ same _ => notReturn same) sameLine,
        read, shown, bne_iff_ne.mpr notEscape]
      rfl
  | short stands =>
      obtain ⟨notShort, notLong⟩ := ne_mark_of_escaped? stands
      rw [List.cons_append, List.singleton_append, basicBlockBody.eq_6 false _ rest
        (fun _ _ _ _ _ same _ => notShort same)
        (fun _ _ _ _ _ _ _ _ _ same _ => notLong same), stands, read]
      rfl
  | code stands =>
      rw [List.cons_append, List.cons_append, List.cons_append, List.cons_append,
        List.cons_append, List.singleton_append, basicBlockBody.eq_4, stands, read]
      rfl

/-- A quote that stands for itself in a block, also when the end of the block is near. -/
theorem basicBlockBody_quote {s rest chars after : List Char} (few : leading '"' s ≤ 1)
    (read : basicBlockBody false (s ++ closing '"' rest) = some (chars, after)) :
    basicBlockBody false ('"' :: (s ++ closing '"' rest)) = some ('"' :: chars, after) := by
  by_cases ends : s = []
  · subst ends
    cases read
    rfl
  by_cases last : s = ['"']
  · subst last
    cases read
    rfl
  have notTwo := not_two_of_leading_le_one few ends last (closing '"' rest)
  rw [basicBlockBody.eq_9 false '"' _ (fun _ _ same => notTwo _ same)
    (fun _ _ same => notTwo _ same) (fun _ _ same => notTwo _ same)
    (by simp) (by simp) (by simp) (by simp) (by simp), read]
  rfl

theorem basicBlockBody_content {quotes : Nat} (few : quotes ≤ 2) (s rest : List Char) :
    basicBlockBody false (basicBlockContent quotes s ++ closing '"' rest) =
      some (s, '\n' :: rest) := by
  induction s generalizing quotes with
  | nil => rfl
  | cons c s ih =>
      by_cases quote : c = '"'
      · subst quote
        rw [basicBlockContent.eq_2]
        split
        · next room =>
          have row : quotes + 1 + leading '"' (basicBlockContent (quotes + 1) s) ≤ 2 :=
            leading_basicBlockContent (by omega) s
          exact basicBlockBody_quote (by omega) (ih (by omega))
        · have escaped : Spelling '"' ['\\', '"'] := .short rfl
          have read := basicBlockBody_spelled escaped (ih (Nat.zero_le 2))
          exact read
      by_cases lineEnd : c = '\n'
      · subst lineEnd
        rw [basicBlockContent.eq_3, List.cons_append, basicBlockBody.eq_8, ih (by omega)]
        rfl
      · rw [basicBlockContent.eq_4 quotes c s quote lineEnd, List.append_assoc]
        exact basicBlockBody_spelled (spelling_basicChar quote lineEnd) (ih (by omega))

theorem literalBlockBody_quote {s rest chars after : List Char} (few : leading '\x27' s ≤ 1)
    (read : literalBlockBody (s ++ closing '\x27' rest) = some (chars, after)) :
    literalBlockBody ('\x27' :: (s ++ closing '\x27' rest)) = some ('\x27' :: chars, after) := by
  by_cases ends : s = []
  · subst ends
    cases read
    rfl
  by_cases last : s = ['\x27']
  · subst last
    cases read
    rfl
  have notTwo := not_two_of_leading_le_one few ends last (closing '\x27' rest)
  rw [literalBlockBody.eq_6 '\x27' _ (fun _ _ same => notTwo _ same)
    (fun _ _ same => notTwo _ same) (fun _ _ same => notTwo _ same) (by simp) (by simp),
    read]
  rfl

theorem literalBlockBody_content {running : Nat} {s : List Char} (rest : List Char)
    (clean : s.any needsEscape = false) (few : longestRunFrom '\x27' running s ≤ 2) :
    literalBlockBody (s ++ closing '\x27' rest) = some (s, '\n' :: rest) := by
  induction s generalizing running with
  | nil => rfl
  | cons c s ih =>
      obtain ⟨first, others⟩ := Bool.or_eq_false_iff.mp clean
      by_cases quote : c = '\x27'
      · subst quote
        rw [longestRunFrom, if_pos rfl] at few
        have row := le_longestRunFrom '\x27' (running + 1) s
        exact literalBlockBody_quote (by omega) (ih others few)
      rw [longestRunFrom, if_neg quote] at few
      have read := ih others (Nat.le_trans (Nat.le_max_right _ _) few)
      by_cases lineEnd : c = '\n'
      · subst lineEnd
        rw [List.cons_append, literalBlockBody.eq_5, read]
        rfl
      have shown := isPlain_of_needsEscape_eq_false first lineEnd
      have notReturn : c ≠ '\r' := by
        rintro rfl
        cases shown
      rw [List.cons_append, literalBlockBody.eq_6 c _ (fun _ same _ => quote same)
        (fun _ same _ => quote same) (fun _ same _ => quote same)
        (fun _ same _ => notReturn same) lineEnd, if_pos shown, read]
      rfl

/-! ### The four forms -/

theorem newline?_cons {c : Char} (shown : isPlain c = true) (rest : List Char) :
    newline? (c :: rest) = none := by
  refine newline?.eq_3 _ ?_ ?_
  · rintro _ same
    cases same
    cases shown
  · rintro _ same
    cases same
    cases shown

theorem skipFirstLineEnd_blockOpening {s written : List Char}
    (oneLine : '\n' ∉ s → newline? written = none) :
    skipFirstLineEnd (blockOpening s ++ written) = written := by
  unfold blockOpening
  split
  · rfl
  · next single =>
    rw [List.contains_iff_mem] at single
    rw [List.nil_append, skipFirstLineEnd, oneLine single]
    rfl

theorem newline?_basicBlockContent {s : List Char} (rest : List Char) (oneLine : '\n' ∉ s) :
    newline? (basicBlockContent 0 s ++ closing '"' rest) = none := by
  cases s with
  | nil => rfl
  | cons c s =>
      rw [List.mem_cons, not_or] at oneLine
      by_cases quote : c = '"'
      · subst quote
        rfl
      rw [basicBlockContent.eq_4 0 c s quote (Ne.symm oneLine.1)]
      obtain ⟨d, tail, same, shown, _⟩ :=
        (spelling_basicChar quote (Ne.symm oneLine.1)).exists_cons
      rw [same]
      exact newline?_cons shown _

theorem newline?_literalBlock {s : List Char} (rest : List Char)
    (clean : s.any needsEscape = false) (oneLine : '\n' ∉ s) :
    newline? (s ++ closing '\x27' rest) = none := by
  cases s with
  | nil => rfl
  | cons c s =>
      rw [List.mem_cons, not_or] at oneLine
      exact newline?_cons (isPlain_of_needsEscape_eq_false (Bool.or_eq_false_iff.mp clean).1
        (Ne.symm oneLine.1)) _

/-- A string on one line is not taken for a block, not even when it is empty. -/
theorem string?_basic (s rest : List Char) :
    string? (writeForm s .basic ++ '\n' :: rest) = some (s, '\n' :: rest) := by
  rw [writeForm, List.cons_append, List.append_assoc, List.singleton_append]
  refine (string?.eq_2 _ ?_).trans (basicBody_basicContent s ('\n' :: rest))
  intro more same
  cases s with
  | nil => cases same
  | cons c s =>
      obtain ⟨spelled, spelling, written⟩ := basicContent_cons c s
      obtain ⟨d, tail, rfl, _, notQuote⟩ := spelling.exists_cons
      rw [written, List.cons_append, List.cons_append, List.cons.injEq] at same
      exact notQuote same.1

theorem string?_literal {s : List Char} (rest : List Char)
    (holds : StringForm.holds s .literal = true) :
    string? (writeForm s .literal ++ '\n' :: rest) = some (s, '\n' :: rest) := by
  have plain := holds_literal holds
  rw [writeForm, List.cons_append, List.append_assoc, List.singleton_append]
  refine (string?.eq_4 _ ?_).trans (literalBody_content ('\n' :: rest) plain)
  intro more same
  cases s with
  | nil => cases same
  | cons c s =>
      rw [List.cons_append, List.cons.injEq] at same
      exact (plain c List.mem_cons_self).2 same.1

theorem string?_basicBlock (s rest : List Char) :
    string? (writeForm s .basicBlock ++ '\n' :: rest) = some (s, '\n' :: rest) := by
  have opening := skipFirstLineEnd_blockOpening (s := s) (newline?_basicBlockContent rest)
  have content := basicBlockBody_content (Nat.zero_le 2) s rest
  rw [writeForm, List.append_assoc, List.append_assoc, List.append_assoc]
  exact (string?.eq_1 _).trans ((congrArg (basicBlockBody false) opening).trans content)

theorem string?_literalBlock {s : List Char} (rest : List Char)
    (holds : StringForm.holds s .literalBlock = true) :
    string? (writeForm s .literalBlock ++ '\n' :: rest) = some (s, '\n' :: rest) := by
  simp only [StringForm.holds, Bool.and_eq_true, Bool.not_eq_true', decide_eq_true_eq] at holds
  obtain ⟨clean, few⟩ := holds
  have opening := skipFirstLineEnd_blockOpening (s := s) (newline?_literalBlock rest clean)
  have content := literalBlockBody_content rest clean few
  rw [writeForm, List.append_assoc, List.append_assoc, List.append_assoc]
  exact (string?.eq_3 _).trans ((congrArg literalBlockBody opening).trans content)

/-- A form without escapes is chosen only for what it holds. -/
theorem StringForm.holds_choose {s : List Char}
    (raw : choose s = .literal ∨ choose s = .literalBlock) :
    holds s (choose s) = true := by
  unfold choose at raw ⊢
  grind

/-- Every text is read back from the form that is chosen for it, up to the end of its
line. -/
theorem string?_writeText (s : String) (rest : List Char) :
    string? (writeText s ++ '\n' :: rest) = some (s.toList, '\n' :: rest) := by
  have holds := StringForm.holds_choose (s := s.toList)
  unfold writeText
  cases form : StringForm.choose s.toList with
  | basic => exact string?_basic s.toList rest
  | literal => exact string?_literal rest (form ▸ holds (.inl form))
  | basicBlock => exact string?_basicBlock s.toList rest
  | literalBlock => exact string?_literalBlock rest (form ▸ holds (.inr form))

end Rollout.Toml
