import Rollout.Task.Id
import Rollout.Text.Hex

/-! Suffixes for task ids: 32 hexadecimal digits in five groups, so that a random start gives ids
that nobody else has.  A suffix holds no underscore. -/

namespace Rollout.TaskId

/-- The suffix of a number below 2^128; of larger ones the last digits count. -/
def suffix (number : Nat) : String :=
  let digits := Text.hexDigits number 32
  let group := fun start length => String.ofList ((digits.drop start).take length)
  "-".intercalate [group 0 8, group 8 4, group 12 4, group 16 4, group 20 12]

def suffixesFrom (start : Nat) : Nat → String := fun number => suffix (start + number)

example : suffix 0xab = "00000000-0000-0000-0000-0000000000ab" := by decide +kernel

end Rollout.TaskId
