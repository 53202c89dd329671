import Rollout.Milestone
import Rollout.Proofs.Plan.Selection

/-! The two strategies over the same parts.  The parallel one selects every eligible part.  The
serial one selects the first of these, or nothing if something before it is neither complete nor
taken: what it passes over is never eligible, so it passes over no part that the parallel one
selects. -/

namespace Rollout.StrategyKind

variable {α : Type} [Element α] {dirty wider : List String} {parts : List α} {index other : Nat}

/-- Nothing before a place holds it up: every part there is complete or taken. -/
def Reaches (dirty : List String) (parts : List α) (index : Nat) : Prop :=
  ∀ earlier < index, ∀ part, parts[earlier]? = some part →
    Element.status part = .complete ∨ Element.name part ∈ dirty

theorem mem_select_iff {kind : StrategyKind} :
    index ∈ kind.select dirty parts ↔
      ∃ part, parts[index]? = some part ∧ Element.isEligible dirty part = true ∧
        (kind = .serial → Reaches dirty parts index) := by
  have handedOut := @Strategy.mem_candidates_iff α _ (.ofKind kind) dirty parts index
  simp only [Element.isComplete, Status.isComplete_iff] at handedOut
  exact handedOut.trans (and_iff_right rfl)

theorem mem_parallel_iff :
    index ∈ parallel.select dirty parts ↔
      ∃ part, parts[index]? = some part ∧ Element.isEligible dirty part = true := by
  simp [mem_select_iff]

theorem mem_serial_iff :
    index ∈ serial.select dirty parts ↔
      index ∈ parallel.select dirty parts ∧ Reaches dirty parts index := by
  simp [mem_select_iff, ← and_assoc]

theorem Reaches.not_lt (reaches : Reaches dirty parts index)
    (selected : other ∈ parallel.select dirty parts) : ¬ other < index := by
  intro before
  obtain ⟨part, found, eligible⟩ := mem_parallel_iff.mp selected
  exact Element.not_eligible_of_passed
    ((reaches other before part found).imp_left Status.isComplete_iff.mpr) eligible

theorem select_ordered (kind : StrategyKind) (dirty : List String) (parts : List α) :
    (kind.select dirty parts).Pairwise (· < ·) :=
  Strategy.candidates_ordered (.ofKind kind) dirty parts

/-- Two places that the serial strategy selects would each hold up the other. -/
theorem serial_eq_singleton_iff :
    serial.select dirty parts = [index] ↔ index ∈ serial.select dirty parts := by
  constructor
  · intro same
    rw [same]
    exact List.mem_singleton_self index
  · intro selected
    have distinct := (select_ordered serial dirty parts).imp Nat.ne_of_lt
    apply List.perm_singleton.mp
    refine (List.perm_ext_iff_of_nodup distinct (List.pairwise_singleton _ index)).mpr ?_
    intro other
    rw [List.mem_singleton]
    constructor
    · intro member
      have first := (mem_serial_iff.mp selected).2.not_lt (mem_serial_iff.mp member).1
      have second := (mem_serial_iff.mp member).2.not_lt (mem_serial_iff.mp selected).1
      omega
    · intro same
      rw [same]
      exact selected

structure Agree (dirty : List String) (parts : List α) : Prop where
  increasing : (parallel.select dirty parts).Pairwise (· < ·)
  eligible : ∀ index, index ∈ parallel.select dirty parts ↔
    ∃ part, parts[index]? = some part ∧
      (Element.status part = .pending ∨ Element.status part = .prepared) ∧
      Element.errors part = [] ∧ Element.name part ∉ dirty
  /-- The serial strategy selects nothing, or what the parallel one selects first. -/
  first : serial.select dirty parts = [] ∨
    ∃ index rest, parallel.select dirty parts = index :: rest ∧
      serial.select dirty parts = [index]
  reached : ∀ index rest, parallel.select dirty parts = index :: rest →
    (serial.select dirty parts = [index] ↔ Reaches dirty parts index)
  /-- Names that are taken as well remove their own parts, and no other. -/
  removed : ∀ added wider : List String, (∀ name, name ∈ wider ↔ name ∈ dirty ∨ name ∈ added) →
    ∀ index, index ∈ parallel.select wider parts ↔ index ∈ parallel.select dirty parts ∧
      ∀ part, parts[index]? = some part → Element.name part ∉ added
  forward : ∀ wider : List String, dirty ⊆ wider → ∀ before after,
    serial.select dirty parts = [before] → serial.select wider parts = [after] → before ≤ after

theorem head_of_serial (selected : serial.select dirty parts = [index]) :
    ∃ rest, parallel.select dirty parts = index :: rest := by
  obtain ⟨member, reaches⟩ := mem_serial_iff.mp (serial_eq_singleton_iff.mp selected)
  cases shape : parallel.select dirty parts with
  | nil =>
      rw [shape] at member
      cases member
  | cons head rest =>
      have ordered := select_ordered parallel dirty parts
      rw [shape] at member ordered
      rcases List.mem_cons.mp member with same | later
      · rw [same]
        exact ⟨rest, rfl⟩
      · have before := List.rel_of_pairwise_cons ordered later
        have selectedHead : head ∈ parallel.select dirty parts := by
          rw [shape]
          exact List.mem_cons_self
        exact False.elim (reaches.not_lt selectedHead before)

theorem mem_parallel_wider_iff {added : List String}
    (widens : ∀ name, name ∈ wider ↔ name ∈ dirty ∨ name ∈ added) :
    index ∈ parallel.select wider parts ↔ index ∈ parallel.select dirty parts ∧
      ∀ part, parts[index]? = some part → Element.name part ∉ added := by
  simp only [mem_parallel_iff, Element.isEligible_iff, widens, not_or]
  constructor
  · rintro ⟨part, found, pending, valid, clean, apart⟩
    refine ⟨⟨part, found, pending, valid, clean⟩, ?_⟩
    intro other again
    rw [found] at again
    cases again
    exact apart
  · rintro ⟨⟨part, found, pending, valid, clean⟩, apart⟩
    exact ⟨part, found, pending, valid, clean, apart part found⟩

/-- What is still eligible under more names was eligible before, and was not passed over. -/
theorem serial_forward (widens : dirty ⊆ wider) (before : serial.select dirty parts = [index])
    (after : serial.select wider parts = [other]) : index ≤ other := by
  obtain ⟨_, reaches⟩ := mem_serial_iff.mp (serial_eq_singleton_iff.mp before)
  obtain ⟨selected, _⟩ := mem_serial_iff.mp (serial_eq_singleton_iff.mp after)
  have widened : ∀ name, name ∈ wider ↔ name ∈ dirty ∨ name ∈ wider :=
    fun name => ⟨Or.inr, fun either => either.elim (@widens name) id⟩
  obtain ⟨narrower, _⟩ := (mem_parallel_wider_iff widened).mp selected
  exact Nat.le_of_not_lt (reaches.not_lt narrower)

/-- Over every list of parts and with every set of taken names, the strategies agree. -/
theorem selections_agree (dirty : List String) (parts : List α) : Agree dirty parts where
  increasing := select_ordered parallel dirty parts
  eligible := by
    intro index
    simp only [mem_parallel_iff, Element.isEligible_iff, Status.isPending_iff]
  first := by
    cases shape : serial.select dirty parts with
    | nil => exact Or.inl rfl
    | cons index others =>
        have selected : index ∈ serial.select dirty parts := by
          rw [shape]
          exact List.mem_cons_self
        have alone := serial_eq_singleton_iff.mpr selected
        obtain ⟨rest, same⟩ := head_of_serial alone
        exact Or.inr ⟨index, rest, same, shape.symm.trans alone⟩
  reached := by
    intro index rest same
    have selected : index ∈ parallel.select dirty parts := by
      rw [same]
      exact List.mem_cons_self
    rw [serial_eq_singleton_iff, mem_serial_iff]
    exact and_iff_right selected
  removed := fun _ _ widens _ => mem_parallel_wider_iff widens
  forward := fun _ widens _ _ => serial_forward widens

/-- A complete part is passed over, a part with errors is not: only the parallel strategy goes
on to what stands behind it. -/
example :
    let parts : List Milestone :=
      [⟨"a", .complete, []⟩, ⟨"b", .pending, []⟩, ⟨"c", .error, ["no image"]⟩, ⟨"d", .pending, []⟩]
    (serial.select [] parts, parallel.select [] parts) = ([1], [1, 3]) ∧
      (serial.select ["b"] parts, parallel.select ["b"] parts) = ([], [3]) := by
  decide

end Rollout.StrategyKind
