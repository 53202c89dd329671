import Rollout.Proofs.Text.Numerals
import Rollout.Proofs.Toml.Strings

/-! A written key is read back, part by part, from a text in which something follows it that
cannot belong to a key. -/

namespace Rollout.Toml

open Text (takeWhile_stop dropWhile_stop)

theorem skipBlanks_cons {c : Char} (shown : isBlank c = false) (rest : List Char) :
    skipBlanks (c :: rest) = c :: rest :=
  dropWhile_stop (s := []) (by simp) shown rest

def OpensKey (c : Char) : Prop :=
  isBareKeyChar c = true ∨ c = '"' ∨ c = '\x27'

/-- Whatever is known to be neither a bare character nor a quote does not open a key. -/
theorem OpensKey.ne {c d : Char} (opens : OpensKey c) (bare : isBareKeyChar d = false)
    (notQuote : d ≠ '"') (notApostrophe : d ≠ '\x27') : c ≠ d := by
  rintro rfl
  rcases opens with opens | opens | opens
  · rw [bare] at opens
    cases opens
  · exact notQuote opens
  · exact notApostrophe opens

theorem OpensKey.isBlank {c : Char} (opens : OpensKey c) : isBlank c = false := by
  have space := opens.ne (d := ' ') rfl (by decide) (by decide)
  have tab := opens.ne (d := '\t') rfl (by decide) (by decide)
  simp [Toml.isBlank, space, tab]

theorem isBareKey_iff {s : List Char} :
    isBareKey s = true ↔ s ≠ [] ∧ ∀ c ∈ s, isBareKeyChar c = true := by
  simp [isBareKey]

theorem writeKeyPart_cases (part : String) :
    (isBareKey part.toList = true ∧ writeKeyPart part = part.toList) ∨
      writeKeyPart part = writeForm part.toList .basic ∨
      (StringForm.holds part.toList .literal = true ∧
        writeKeyPart part = writeForm part.toList .literal) := by
  simp only [writeKeyPart, StringForm.chooseForKey]
  grind

theorem writeKeyPart_eq_cons (part : String) :
    ∃ c tail, writeKeyPart part = c :: tail ∧ OpensKey c := by
  rcases writeKeyPart_cases part with ⟨bare, same⟩ | same | ⟨_, same⟩
  · obtain ⟨nonempty, plain⟩ := isBareKey_iff.mp bare
    obtain ⟨c, tail, front⟩ := List.exists_cons_of_ne_nil nonempty
    exact ⟨c, tail, same.trans front, .inl (plain c (front ▸ List.mem_cons_self))⟩
  · exact ⟨'"', _, same, .inr (.inl rfl)⟩
  · exact ⟨'\x27', _, same, .inr (.inr rfl)⟩

theorem keyPart?_bare {s : List Char} (bare : isBareKey s = true) {c : Char}
    (stops : isBareKeyChar c = false) (rest : List Char) :
    keyPart? (s ++ c :: rest) = some (String.ofList s, c :: rest) := by
  obtain ⟨nonempty, plain⟩ := isBareKey_iff.mp bare
  obtain ⟨first, tail, same⟩ := List.exists_cons_of_ne_nil nonempty
  have opens : isBareKeyChar first = true := plain first (same ▸ List.mem_cons_self)
  have notQuote : first ≠ '"' := by
    rintro rfl
    cases opens
  have notApostrophe : first ≠ '\x27' := by
    rintro rfl
    cases opens
  rw [keyPart?.eq_3 _ (by simp [same, notQuote]) (by simp [same, notApostrophe]),
    takeWhile_stop plain stops, dropWhile_stop plain stops]
  simp only [same]

theorem keyPart?_writeKeyPart (part : String) {c : Char} (stops : isBareKeyChar c = false)
    (rest : List Char) :
    keyPart? (writeKeyPart part ++ c :: rest) = some (part, c :: rest) := by
  rcases writeKeyPart_cases part with ⟨bare, same⟩ | same | ⟨holds, same⟩
  · rw [same, keyPart?_bare bare stops, String.ofList_toList]
  · rw [same, writeForm, List.cons_append, List.append_assoc, keyPart?, List.singleton_append,
      basicBody_basicContent, Option.map_some, String.ofList_toList]
  · rw [same, writeForm, List.cons_append, List.append_assoc, keyPart?, List.singleton_append,
      literalBody_content _ (holds_literal holds), Option.map_some, String.ofList_toList]

theorem skipBlanks_writeKeyPart (part : String) (rest : List Char) :
    skipBlanks (writeKeyPart part ++ rest) = writeKeyPart part ++ rest := by
  obtain ⟨c, tail, same, opens⟩ := writeKeyPart_eq_cons part
  rw [same, List.cons_append, skipBlanks_cons opens.isBlank]

theorem writeKey_eq_cons {path : List String} (nonempty : path ≠ []) :
    ∃ c tail, writeKey path = c :: tail ∧ OpensKey c := by
  match path, nonempty with
  | [part], _ => exact writeKeyPart_eq_cons part
  | part :: next :: path, _ =>
      obtain ⟨c, tail, same, opens⟩ := writeKeyPart_eq_cons part
      refine ⟨c, tail ++ '.' :: writeKey (next :: path), ?_, opens⟩
      rw [writeKey.eq_3 part _ (List.cons_ne_nil next path), same, List.cons_append]

/-- A key is read back if it has no more parts than a reader takes, and neither a bare
character nor a dot follows it. -/
theorem keyPartsWithin_writeKey {path : List String} (nonempty : path ≠ []) {fuel : Nat}
    (enough : path.length ≤ fuel) {c : Char} {rest : List Char}
    (stops : isBareKeyChar c = false) (ends : ∀ more, skipBlanks (c :: rest) ≠ '.' :: more) :
    keyPartsWithin fuel (writeKey path ++ c :: rest) = some (path, skipBlanks (c :: rest)) := by
  induction path generalizing fuel with
  | nil => exact absurd rfl nonempty
  | cons part path ih =>
      obtain ⟨fuel, rfl⟩ : ∃ less, fuel = less + 1 :=
        ⟨fuel - 1, by rw [List.length_cons] at enough; omega⟩
      cases path with
      | nil =>
          rw [writeKey, keyPartsWithin, skipBlanks_writeKeyPart,
            keyPart?_writeKeyPart part stops]
          simp only [Option.bind_eq_bind, Option.bind_some]
          rfl
      | cons next path =>
          have others := ih (List.cons_ne_nil next path) (Nat.le_of_succ_le_succ enough)
          rw [writeKey.eq_3 part _ (List.cons_ne_nil next path), List.append_assoc,
            List.cons_append, keyPartsWithin, skipBlanks_writeKeyPart,
            keyPart?_writeKeyPart part rfl]
          simp only [Option.bind_eq_bind, Option.bind_some]
          rw [skipBlanks_cons rfl]
          simp only [others]
          rfl

theorem key?_writeKey {path : List String} (nonempty : path ≠ [])
    (enough : path.length < nestingLimit) {c : Char} {rest : List Char}
    (stops : isBareKeyChar c = false) (ends : ∀ more, skipBlanks (c :: rest) ≠ '.' :: more) :
    key? (writeKey path ++ c :: rest) = some (path, skipBlanks (c :: rest)) :=
  keyPartsWithin_writeKey nonempty (Nat.le_sub_one_of_lt enough) stops ends

end Rollout.Toml
