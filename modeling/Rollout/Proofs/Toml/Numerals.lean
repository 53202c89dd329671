import Rollout.Proofs.Toml.Keys

/-! A written whole number is read back.  Dates, times and floats are tried before integers, and
digits up to the end of a line are the start of none of them. -/

namespace Rollout.Toml

open Text (hexValue? dropWhile_stop digits_toDigits head?_toDigits)

/-! ### Digits -/

theorem hexValue?_digit {c : Char} (digit : c.isDigit = true) :
    hexValue? c = some (c.toNat - '0'.toNat) := by
  rw [Char.isDigit, Bool.and_eq_true, decide_eq_true_eq, decide_eq_true_eq] at digit
  exact if_pos digit

theorem valueOfDigits_eq_ofDigitChars {digits : List Char}
    (plain : ∀ c ∈ digits, c.isDigit = true) :
    valueOfDigits 10 digits = Nat.ofDigitChars 10 digits 0 := by
  rw [valueOfDigits, Nat.ofDigitChars_eq_foldl]
  suffices ∀ front, digits.foldl (fun n digit => n * 10 + (hexValue? digit).getD 0) front =
      digits.foldl (fun sofar c => 10 * sofar + (c.toNat - '0'.toNat)) front from this 0
  induction digits with
  | nil => exact fun _ => rfl
  | cons c digits ih =>
      intro front
      rw [List.foldl_cons, List.foldl_cons, hexValue?_digit (plain c List.mem_cons_self),
        Option.getD_some, Nat.mul_comm,
        ih fun other member => plain other (List.mem_cons_of_mem c member)]

theorem valueOfDigits_toDigits (n : Nat) : valueOfDigits 10 (Nat.toDigits 10 n) = n := by
  rw [valueOfDigits_eq_ofDigitChars (digits_toDigits n), Nat.ofDigitChars_ten_toDigits]

theorem digitsAfter_line {digits : List Char} (plain : ∀ c ∈ digits, c.isDigit = true)
    (rest : List Char) :
    digitsAfter Char.isDigit (digits ++ '\n' :: rest) = (digits, '\n' :: rest) := by
  induction digits with
  | nil => rfl
  | cons c digits ih =>
      have digit := plain c List.mem_cons_self
      have notMark : c ≠ '_' := by
        rintro rfl
        cases digit
      rw [List.cons_append, digitsAfter.eq_2 _ c _ (fun _ _ same _ => notMark same),
        if_pos digit, ih fun other member => plain other (List.mem_cons_of_mem c member)]

theorem wholeDigits?_toDigits (n : Nat) (rest : List Char) :
    wholeDigits? (Nat.toDigits 10 n ++ '\n' :: rest) =
      some (Nat.toDigits 10 n, '\n' :: rest) := by
  by_cases zero : n = 0
  · subst zero
    rfl
  have front := head?_toDigits (Nat.pos_of_ne_zero zero)
  have plain := digits_toDigits n
  obtain ⟨c, digits, same⟩ := List.exists_cons_of_ne_nil (Nat.toDigits_ne_nil (n := n) (b := 10))
  rw [same] at front plain ⊢
  rw [List.cons_append, wholeDigits?.eq_2 _ (by simpa using front), digits?,
    if_pos (plain c List.mem_cons_self),
    digitsAfter_line fun other member => plain other (List.mem_cons_of_mem c member)]

/-! ### What digits are not -/

theorem exists_of_bounded? {low high : Nat} {s : List Char} {found : Nat × List Char}
    (bounded : bounded? low high s = some found) :
    ∃ a b, s = a :: b :: found.2 ∧ ∀ c ∈ [a, b], c.isDigit = true := by
  match s with
  | [] => cases bounded
  | [_] => cases bounded
  | a :: b :: rest =>
      rw [bounded?, twoDigits?] at bounded
      by_cases digits : a.isDigit && b.isDigit
      · rw [if_pos digits] at bounded
        simp only [Option.bind_eq_bind, Option.bind_some] at bounded
        split at bounded
        · cases bounded
          rw [Bool.and_eq_true] at digits
          exact ⟨a, b, rfl, by simpa using digits⟩
        · cases bounded
      · rw [if_neg digits] at bounded
        cases bounded
theorem eq_of_expect? {c : Char} {s rest : List Char} (expected : expect? c s = some rest) :
    s = c :: rest := by
  cases s with
  | nil => cases expected
  | cons d s =>
      rw [expect?] at expected
      split at expected
      · next same =>
        rw [same, Option.some.inj expected]
      · cases expected

section

variable {digits : List Char} (plain : ∀ c ∈ digits, c.isDigit = true) (rest : List Char)

include plain

theorem eq_lineEnd_of_digits {front more : List Char} {c : Char}
    (before : ∀ d ∈ front, d.isDigit = true) (other : c.isDigit = false)
    (same : digits ++ '\n' :: rest = front ++ c :: more) : c = '\n' := by
  have cut := congrArg (List.dropWhile Char.isDigit) same
  rw [dropWhile_stop plain rfl, dropWhile_stop before other] at cut
  exact (List.cons.inj cut).1.symm

theorem ne_cons_of_digits {c : Char} (other : c.isDigit = false) (notEnd : c ≠ '\n')
    (more : List Char) : digits ++ '\n' :: rest ≠ c :: more :=
  fun same => notEnd (eq_lineEnd_of_digits plain rest (List.forall_mem_nil _) other same)

theorem sign_line : sign (digits ++ '\n' :: rest) = (false, digits ++ '\n' :: rest) :=
  sign.eq_3 _ (ne_cons_of_digits plain rest rfl (by decide))
    (ne_cons_of_digits plain rest rfl (by decide))

theorem special?_line : special? (digits ++ '\n' :: rest) = none :=
  special?.eq_3 _ (fun _ => ne_cons_of_digits plain rest rfl (by decide) _)
    (fun _ => ne_cons_of_digits plain rest rfl (by decide) _)

theorem date?_line : date? (digits ++ '\n' :: rest) = none := by
  unfold date?
  split
  · next a b c d more same =>
    apply if_neg
    intro dated
    have dash : '-' = '\n' :=
      eq_lineEnd_of_digits plain rest (List.all_eq_true.mp dated) rfl same
    cases dash
  · rfl

theorem time?_line : time? (digits ++ '\n' :: rest) = none := by
  unfold time?
  cases hour : bounded? 0 23 (digits ++ '\n' :: rest) with
  | none => rfl
  | some found =>
      obtain ⟨a, b, same, early⟩ := exists_of_bounded? hour
      cases mark : expect? ':' found.2 with
      | none => simp [mark]
      | some s =>
          rw [eq_of_expect? mark] at same
          have colon : ':' = '\n' := eq_lineEnd_of_digits plain rest early rfl same
          cases colon

theorem moment?_line : moment? (digits ++ '\n' :: rest) = none := by
  rw [moment?, date?_line plain rest, time?_line plain rest]
  rfl

end

/-! ### Whole numbers -/

theorem float?_toDigits (n : Nat) (rest : List Char) :
    float? (Nat.toDigits 10 n ++ '\n' :: rest) = none := by
  have plain := digits_toDigits n
  rw [float?, sign_line plain rest]
  simp only [special?_line plain rest, wholeDigits?_toDigits]
  rfl

/-- What follows the sign, under any check of the value: with the real one, whose bound is a
large numeral, the steps below would be computed and not compared. -/
theorem signed_toDigits {accepts : Int → Bool} {n : Nat} (fits : accepts n = true)
    (rest : List Char) :
    (match (false, Nat.toDigits 10 n ++ '\n' :: rest) with
      | (negative, s) => do
        let (digits, rest) ← wholeDigits? s
        let size : Int := valueOfDigits 10 digits
        let value := if negative then -size else size
        if accepts value then some (Document.integer value, rest) else none) =
      some (.integer n, '\n' :: rest) := by
  simp only [wholeDigits?_toDigits, valueOfDigits_toDigits, Option.bind_eq_bind,
    Option.bind_some, Bool.false_eq_true, if_false, fits, if_true]

theorem integer?_toDigits {n : Nat} (fits : inRange n = true) (rest : List Char) :
    integer? (Nat.toDigits 10 n ++ '\n' :: rest) = some (.integer n, '\n' :: rest) := by
  have plain := digits_toDigits n
  have zero : ∀ c ∈ ['0'], c.isDigit = true := by simp
  have unmarked : ∀ mark more, mark.isDigit = false → mark ≠ '\n' →
      Nat.toDigits 10 n ++ '\n' :: rest ≠ '0' :: mark :: more := by
    intro mark more other notEnd same
    exact notEnd (eq_lineEnd_of_digits plain rest zero other same)
  rw [integer?.eq_4 _ (fun more => unmarked 'x' more rfl (by decide))
    (fun more => unmarked 'o' more rfl (by decide))
    (fun more => unmarked 'b' more rfl (by decide)), sign_line plain rest]
  exact signed_toDigits fits rest

theorem number?_toDigits {n : Nat} (fits : inRange n = true) (rest : List Char) :
    number? (Nat.toDigits 10 n ++ '\n' :: rest) = some (.integer n, '\n' :: rest) := by
  rw [number?, moment?_line (digits_toDigits n) rest, float?_toDigits,
    integer?_toDigits fits]
  rfl

end Rollout.Toml
