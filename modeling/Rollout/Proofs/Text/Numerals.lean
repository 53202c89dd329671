/-! Runs of characters up to one that stops them, and the digits of numerals. -/

namespace Rollout.Text

section

variable {p : Char → Bool} {s : List Char} (inside : ∀ c ∈ s, p c = true) {c : Char}
  (stops : p c = false) (rest : List Char)

include inside stops

theorem takeWhile_stop : (s ++ c :: rest).takeWhile p = s := by
  rw [List.takeWhile_append_of_pos inside, List.takeWhile_cons_of_neg (by simp [stops]),
    List.append_nil]

theorem dropWhile_stop : (s ++ c :: rest).dropWhile p = c :: rest := by
  rw [List.dropWhile_append_of_pos inside, List.dropWhile_cons_of_neg (by simp [stops])]

end

theorem ne_of_isDigit {c mark : Char} (digit : c.isDigit = true) (other : mark.isDigit = false) :
    c ≠ mark := by
  rintro rfl
  rw [digit] at other
  cases other

theorem digits_toDigits (n : Nat) : ∀ c ∈ Nat.toDigits 10 n, c.isDigit = true :=
  fun _ member => Nat.isDigit_of_mem_toDigits (by decide) (by decide) member

theorem exists_toDigits_eq_cons (n : Nat) :
    ∃ c digits, Nat.toDigits 10 n = c :: digits ∧ c.isDigit = true := by
  obtain ⟨c, digits, same⟩ := List.exists_cons_of_ne_nil (Nat.toDigits_ne_nil (n := n) (b := 10))
  exact ⟨c, digits, same, digits_toDigits n c (by rw [same]; exact List.mem_cons_self)⟩

theorem head?_toDigits {n : Nat} (positive : 0 < n) :
    (Nat.toDigits 10 n).head? ≠ some '0' := by
  induction n using Nat.strongRecOn with
  | ind n ih =>
      by_cases small : n < 10
      · rw [Nat.toDigits_of_lt_base small]
        have digits : ∀ m < 10, 0 < m → [m.digitChar].head? ≠ some '0' := by decide
        exact digits n small positive
      · rw [Nat.toDigits_of_base_le (by decide) (by omega), List.head?_append]
        have front := ih (n / 10) (by omega) (by omega)
        cases same : (Nat.toDigits 10 (n / 10)).head? with
        | none => exact absurd (List.head?_eq_none_iff.mp same) Nat.toDigits_ne_nil
        | some c => rwa [same] at front

end Rollout.Text
