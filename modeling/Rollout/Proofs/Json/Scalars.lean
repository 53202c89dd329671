import Rollout.Json.Printer
import Rollout.Json.Reader
import Rollout.Proofs.Text.Numerals

/-! Written JSON strings and whole numbers are read back.  A string is read one character at a
time, as it stands or from an escape; the delicate point is an escape by code, which is read
together with a second one that follows it, since two of them can stand for one character. A
number goes on as long as it can, so it is read back in front of what cannot go on with it. -/

namespace Rollout.Json

/-! ### Strings -/

inductive Spelling (c : Char) : List Char → Prop where
  | plain (shown : 0x20 ≤ c.toNat) (notQuote : c ≠ '"') (notEscape : c ≠ '\\') :
      Spelling c [c]
  | short {e : Char} (stands : escaped? e = some c) : Spelling c ['\\', e]
  | code {w x y z : Char} (stands : unit? w x y z = some c.toNat) (control : c.toNat < 0x20) :
      Spelling c ['\\', 'u', w, x, y, z]

theorem spelling_stringChar (c : Char) : Spelling c (stringChar c) := by
  unfold stringChar
  split
  · exact .short rfl
  · exact .short rfl
  · exact .short rfl
  · exact .short rfl
  · exact .short rfl
  · exact .short rfl
  · exact .short rfl
  · next notQuote notEscape _ _ _ _ _ =>
    split
    · next control =>
      have units : ∀ n < 0x20, unit? (n / 16 / 16 / 16 % 16).digitChar
          (n / 16 / 16 % 16).digitChar (n / 16 % 16).digitChar (n % 16).digitChar = some n := by
        decide +kernel
      exact .code (units c.toNat control) control
    · next shown => exact .plain (Nat.le_of_not_lt shown) notQuote notEscape

theorem ne_mark_of_escaped? {e c : Char} (stands : escaped? e = some c) : e ≠ 'u' := by
  rintro rfl
  cases stands

theorem stringBody_of_unit?_eq_none {e f g h : Char} (broken : unit? e f g h = none)
    (rest : List Char) : stringBody ('\\' :: 'u' :: e :: f :: g :: h :: rest) = none := by
  by_cases pair : ∃ a b c d more, rest = '\\' :: 'u' :: a :: b :: c :: d :: more
  · obtain ⟨a, b, c, d, more, rfl⟩ := pair
    rw [stringBody.eq_2, broken]
    rfl
  · rw [stringBody.eq_3 _ _ _ _ _ fun a b c d more same => pair ⟨a, b, c, d, more, same⟩,
      broken]
    rfl

/-- A code below those of pairs stands for itself, whatever code comes after it. -/
theorem stringBody_code {a b c d : Char} {unit : Nat} (stands : unit? a b c d = some unit)
    (single : unit < 0xD800) {rest chars after : List Char}
    (read : stringBody rest = some (chars, after)) :
    stringBody ('\\' :: 'u' :: a :: b :: c :: d :: rest) =
      some (Char.ofNat unit :: chars, after) := by
  have char : charOfUnit? unit = some (Char.ofNat unit) := if_neg (by omega)
  by_cases pair : ∃ e f g h more, rest = '\\' :: 'u' :: e :: f :: g :: h :: more
  · obtain ⟨e, f, g, h, more, rfl⟩ := pair
    cases second : unit? e f g h with
    | none =>
        rw [stringBody_of_unit?_eq_none second] at read
        cases read
    | some low =>
        have apart : charOfPair? unit low = none := if_neg (by omega)
        rw [stringBody.eq_2, stands, second]
        simp only [Option.bind_eq_bind, Option.bind_some, apart, char, read]
        rfl
  · rw [stringBody.eq_3 _ _ _ _ _ fun e f g h more same => pair ⟨e, f, g, h, more, same⟩,
      stands]
    simp only [Option.bind_eq_bind, Option.bind_some, char, read]
    rfl

theorem stringBody_spelled {c : Char} {spelled rest chars after : List Char}
    (spelling : Spelling c spelled) (read : stringBody rest = some (chars, after)) :
    stringBody (spelled ++ rest) = some (c :: chars, after) := by
  cases spelling with
  | plain shown notQuote notEscape =>
      have shows : ¬ (c == '\\' || decide (c.toNat < 0x20)) = true := by
        simp [notEscape, Nat.not_lt.mpr shown]
      rw [List.singleton_append, stringBody.eq_5 c rest notQuote
        (fun _ _ _ _ _ _ _ _ _ same _ => notEscape same)
        (fun _ _ _ _ _ same _ => notEscape same) (fun _ _ same _ => notEscape same),
        if_neg shows, read]
      rfl
  | short stands =>
      have notCode := ne_mark_of_escaped? stands
      rw [List.cons_append, List.singleton_append, stringBody.eq_4 _ rest
        (fun _ _ _ _ _ _ _ _ _ same _ => notCode same) (fun _ _ _ _ _ same _ => notCode same),
        stands, read]
      rfl
  | code stands control =>
      have same := stringBody_code stands (by omega) read
      rw [Char.ofNat_toNat] at same
      exact same

theorem stringBody_flatMap (chars rest : List Char) :
    stringBody (chars.flatMap stringChar ++ '"' :: rest) = some (chars, rest) := by
  induction chars with
  | nil => exact stringBody.eq_1 rest
  | cons c chars ih =>
      rw [List.flatMap_cons, List.append_assoc]
      exact stringBody_spelled (spelling_stringChar c) ih

theorem toList_string (s : String) :
    (string s).toList = '"' :: (s.toList.flatMap stringChar ++ ['"']) :=
  String.toList_ofList

theorem string?_string (s : String) (rest : List Char) :
    string? ((string s).toList ++ rest) = some (s, rest) := by
  rw [toList_string, List.cons_append, List.append_assoc, List.singleton_append, string?,
    stringBody_flatMap]
  exact congrArg (fun text => some (text, rest)) String.ofList_toList

/-! ### Whole numbers -/

def Ends (rest : List Char) : Prop :=
  ∀ c tail, rest = c :: tail → c ∈ [' ', '\t', '\n', '\r', ',', ']', '\x7d']

theorem Ends.ne_cons {rest : List Char} (ends : Ends rest) {c : Char}
    (other : c ∉ [' ', '\t', '\n', '\r', ',', ']', '\x7d']) (tail : List Char) :
    rest ≠ c :: tail :=
  fun same => other (ends c tail same)

theorem digits_append {front rest : List Char} (plain : ∀ c ∈ front, c.isDigit = true)
    (ends : Ends rest) : digits (front ++ rest) = (front, rest) := by
  have others : ∀ c ∈ [' ', '\t', '\n', '\r', ',', ']', '\x7d'], c.isDigit = false := by simp
  rw [digits]
  cases rest with
  | nil =>
      rw [List.takeWhile_append_of_pos plain, List.dropWhile_append_of_pos plain,
        List.takeWhile_nil, List.dropWhile_nil, List.append_nil]
  | cons c tail =>
      have stops := others c (ends c tail rfl)
      rw [Text.takeWhile_stop plain stops, Text.dropWhile_stop plain stops]

theorem wholePart_toDigits (n : Nat) {rest : List Char} (ends : Ends rest) :
    wholePart (Nat.toDigits 10 n ++ rest) = some (Nat.toDigits 10 n, rest) := by
  by_cases zero : n = 0
  · subst zero
    rfl
  have front := Text.head?_toDigits (Nat.pos_of_ne_zero zero)
  obtain ⟨c, more, same, _⟩ := Text.exists_toDigits_eq_cons n
  have run := digits_append (Text.digits_toDigits n) ends
  rw [same] at front run ⊢
  rw [wholePart.eq_2 _ (by simpa using front), run]

theorem number?_toDigits {n : Nat} (small : n < UInt64.size) {rest : List Char}
    (ends : Ends rest) :
    number? (Nat.toDigits 10 n ++ rest) = some (.integer n, rest) := by
  have unsigned : ∀ tail, Nat.toDigits 10 n ++ rest ≠ '-' :: tail := by
    intro tail same
    obtain ⟨c, more, digits, digit⟩ := Text.exists_toDigits_eq_cons n
    rw [digits] at same
    exact Text.ne_of_isDigit digit (by decide) (List.cons.inj same).1
  have value : numberValue? false (Nat.toDigits 10 n) none none = some (.integer n) := by
    have size : natOfDigits (Nat.toDigits 10 n) = n := Nat.ofDigitChars_ten_toDigits
    rw [numberValue?, size]
    exact if_pos (by simp [small])
  rw [number?.eq_2 _ unsigned, wholePart_toDigits n ends]
  simp only [Option.bind_eq_bind, Option.bind_some,
    fraction.eq_2 rest (ends.ne_cons (by decide)),
    exponent.eq_3 rest (ends.ne_cons (by decide)) (ends.ne_cons (by decide)), value]
  rfl

end Rollout.Json
