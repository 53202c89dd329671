import Rollout.Decimal.Basic

/-! A quicker way to read a decimal, whose result can lie a little beside the nearest binary
number.  As many digits as fit into 64 bits make a whole number, which is rounded; it is then
multiplied or divided by a power of ten, which is rounded as well, and so is the result. -/

namespace Rollout

namespace Binary

def ofNat? (n : Nat) : Option Binary :=
  nearest? n 1

def fraction (b : Binary) : Nat × Nat :=
  (b.mantissa * powerOfTwo b.exponent.toNat, powerOfTwo (-b.exponent).toNat)

def mul? (a b : Binary) : Option Binary :=
  let (top, bottom) := a.fraction
  let (top', bottom') := b.fraction
  nearest? (top * top') (bottom * bottom')

def div? (a b : Binary) : Option Binary :=
  let (top, bottom) := a.fraction
  let (top', bottom') := b.fraction
  nearest? (top * bottom') (bottom * top')

def greatestPower : Nat := 308

def timesPower? (b : Binary) (power : Nat) : Option Binary := do
  let factor ← ofNat? (powerOfTen power)
  b.mul? factor

def overPower? (b : Binary) (power : Nat) : Option Binary := do
  let divisor ← ofNat? (powerOfTen power)
  b.div? divisor

/-- Shifts the point of a number below `2 ^ 64`.  A shift to the left is made in two
steps when one is not enough; what is left after two is zero. -/
def shiftPoint? (b : Binary) (places : Int) : Option Binary :=
  if b.mantissa = 0 then some zero
  else
    let power := places.natAbs
    if 0 ≤ places then
      if power ≤ greatestPower then b.timesPower? power else none
    else if power ≤ greatestPower then b.overPower? power
    else if power ≤ 2 * greatestPower then do
      let scaled ← b.overPower? greatestPower
      scaled.overPower? (power - greatestPower)
    else some zero

def takeDigits (n : Nat) : List Char → Nat × Nat
  | [] => (n, 0)
  | digit :: rest =>
      let next := 10 * n + (digit.toNat - '0'.toNat)
      if next < UInt64.size then
        let (found, count) := takeDigits next rest
        (found, count + 1)
      else (n, 0)

/-- The number with these digits before and after the point, and this exponent.  Digits
before the point that are not taken still shift it. -/
def stepwise? (whole after : List Char) (exponent : Int) : Option Binary := do
  let (front, frontCount) := takeDigits 0 whole
  let (taken, afterCount) := takeDigits front after
  let b ← ofNat? taken
  b.shiftPoint? (exponent + whole.length - frontCount - afterCount)

end Binary

end Rollout
