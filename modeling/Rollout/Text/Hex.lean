/-! Hexadecimal digits. -/

namespace Rollout.Text

def hexValue? (c : Char) : Option Nat :=
  if '0' ≤ c ∧ c ≤ '9' then some (c.toNat - '0'.toNat)
  else if 'a' ≤ c ∧ c ≤ 'f' then some (c.toNat - 'a'.toNat + 10)
  else if 'A' ≤ c ∧ c ≤ 'F' then some (c.toNat - 'A'.toNat + 10)
  else none

def hexDigits (number : Nat) : Nat → List Char
  | 0 => []
  | count + 1 => hexDigits (number / 16) count ++ [(number % 16).digitChar]

end Rollout.Text
