import Mathlib.Algebra.Order.BigOperators.Group.List
import Mathlib.Algebra.Order.Ring.Nat

/-! The lines of a text that is put together from pieces, each closed by a line feed.  There is a
line for each piece and a further one for each line feed inside a piece, so the pieces are the
lines exactly when none of them holds a line feed. -/

namespace Rollout.Text

def linesOf : List Char → List (List Char)
  | [] => []
  | c :: rest =>
      if c = '\n' then [] :: linesOf rest
      else
        match linesOf rest with
        | [] => [[c]]
        | line :: others => (c :: line) :: others

def lines (text : String) : List String :=
  (linesOf text.toList).map String.ofList

def Unbroken (text : String) : Prop :=
  '\n' ∉ text.toList

instance (text : String) : Decidable (Unbroken text) :=
  inferInstanceAs (Decidable (_ ∉ _))

theorem linesOf_closed {front : List Char} (plain : '\n' ∉ front) (rest : List Char) :
    linesOf (front ++ '\n' :: rest) = front :: linesOf rest := by
  induction front with
  | nil => rfl
  | cons c front ih =>
      rw [List.mem_cons, not_or] at plain
      rw [List.cons_append, linesOf, if_neg (Ne.symm plain.1), ih plain.2]

/-- A closed piece is as many lines as it has line feeds, with the one that closes it. -/
theorem length_linesOf_closed (front rest : List Char) :
    (linesOf (front ++ '\n' :: rest)).length = front.count '\n' + 1 + (linesOf rest).length := by
  induction front with
  | nil =>
      rw [List.nil_append, linesOf, if_pos rfl, List.length_cons, List.count_nil]
      exact Nat.add_comm ..
  | cons c front ih =>
      rw [List.cons_append, linesOf, List.count_cons]
      by_cases feed : c = '\n'
      · subst feed
        rw [if_pos rfl, List.length_cons, ih, beq_self_eq_true, if_pos rfl]
        omega
      · rw [if_neg feed, beq_false_of_ne feed, if_neg Bool.false_ne_true]
        cases found : linesOf (front ++ '\n' :: rest) with
        | nil =>
            rw [found, List.length_nil] at ih
            omega
        | cons line others =>
            rw [found, List.length_cons] at ih
            rw [List.length_cons, ih]

def closed (pieces : List String) : String :=
  String.join (pieces.map (· ++ "\n"))

theorem toList_closed_cons (piece : String) (rest : List String) :
    (closed (piece :: rest)).toList = piece.toList ++ '\n' :: (closed rest).toList := by
  simp [closed, String.toList_join]

theorem length_lines_closed (pieces : List String) :
    (lines (closed pieces)).length =
      pieces.length + (pieces.map fun piece => piece.toList.count '\n').sum := by
  rw [lines, List.length_map]
  induction pieces with
  | nil => rfl
  | cons piece rest ih =>
      rw [toList_closed_cons, length_linesOf_closed, ih, List.length_cons, List.map_cons,
        List.sum_cons]
      omega

theorem lines_closed_of_unbroken {pieces : List String}
    (plain : ∀ piece ∈ pieces, Unbroken piece) : lines (closed pieces) = pieces := by
  induction pieces with
  | nil => rfl
  | cons piece rest ih =>
      have others := ih fun other member => plain other (List.mem_cons_of_mem piece member)
      rw [lines] at others ⊢
      rw [toList_closed_cons, linesOf_closed (plain piece List.mem_cons_self), List.map_cons,
        others, String.ofList_toList]

/-- There are as many lines as pieces just if no piece holds a line feed. -/
theorem length_lines_closed_iff {pieces : List String} :
    (lines (closed pieces)).length = pieces.length ↔ ∀ piece ∈ pieces, Unbroken piece := by
  rw [length_lines_closed, Nat.add_eq_left, List.sum_eq_zero_iff, List.forall_mem_map]
  simp only [List.count_eq_zero, Unbroken]

theorem lines_closed_iff {pieces : List String} :
    lines (closed pieces) = pieces ↔ ∀ piece ∈ pieces, Unbroken piece :=
  ⟨fun same => length_lines_closed_iff.mp (congrArg List.length same), lines_closed_of_unbroken⟩

theorem unbroken_append {first second : String} :
    Unbroken (first ++ second) ↔ Unbroken first ∧ Unbroken second := by
  simp [Unbroken]

theorem unbroken_intercalate {separator : String} (apart : Unbroken separator)
    {texts : List String} :
    Unbroken (separator.intercalate texts) ↔ ∀ text ∈ texts, Unbroken text := by
  unfold Unbroken at *
  rw [String.toList_intercalate]
  induction texts with
  | nil => simp
  | cons text rest ih =>
      cases rest with
      | nil => simp
      | cons next others =>
          rw [List.map_cons, List.map_cons, List.intercalate_cons_cons, ← List.map_cons,
            List.mem_append, List.mem_append, not_or, not_or, ih,
            List.forall_mem_cons (l := next :: others), and_iff_left apart]

end Rollout.Text
