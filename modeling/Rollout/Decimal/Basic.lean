/-! Decimal numbers as a reader meets them, and the 64-bit binary number nearest to each.  All
arithmetic is on naturals: no rounding happens but the one that is stated. -/

namespace Rollout

def powerOfTwo (n : Nat) : Nat := Nat.pow 2 n

def powerOfTen (n : Nat) : Nat := Nat.pow 10 n

/-- A magnitude in decimal notation: `coefficient * 10 ^ exponent`. -/
structure Decimal where
  coefficient : Nat
  exponent : Int
  deriving DecidableEq, Repr

/-- A binary number `mantissa * 2 ^ exponent`.  The ones that occur have a mantissa
below `2 ^ 53` and an exponent of at least `Binary.lowest`. -/
structure Binary where
  mantissa : Nat
  exponent : Int
  deriving DecidableEq, Repr

namespace Binary

def lowest : Int := -1074

def highest : Int := 971

def zero : Binary := ⟨0, lowest⟩

/-- A mantissa that filled all its bits and one more moves to the next grid. -/
def carry (b : Binary) : Binary :=
  if b.mantissa = powerOfTwo 53 then ⟨powerOfTwo 52, b.exponent + 1⟩ else b

end Binary

inductive Tie where
  | toEven
  | upward
  deriving DecidableEq, Repr

def Tie.settle (tie : Tie) (lower : Nat) : Nat :=
  match tie with
  | .toEven => if lower % 2 = 0 then lower else lower + 1
  | .upward => lower + 1

def roundNearest (tie : Tie) (numerator denominator : Nat) : Nat :=
  let quotient := numerator / denominator
  let remainder := numerator % denominator
  if 2 * remainder < denominator then quotient
  else if denominator < 2 * remainder then quotient + 1
  else tie.settle quotient

namespace Binary

def onGrid (numerator denominator : Nat) (exponent : Int) : Nat × Nat :=
  (numerator * powerOfTwo (-exponent).toNat, denominator * powerOfTwo exponent.toNat)

/-- The grid on which the fraction has a 53-bit mantissa, or the finest one.  The
logarithms leave two candidates; the finer one is taken when the mantissa of the
coarser one would be short. -/
def gridFor (numerator denominator : Nat) : Int :=
  let guess : Int := (numerator.log2 : Int) - (denominator.log2 : Int) - 52
  let coarse := max guess lowest
  let (top, bottom) := onGrid numerator denominator coarse
  if lowest < coarse ∧ top < bottom * powerOfTwo 52 then coarse - 1 else coarse

/-- The binary number nearest to a fraction, `none` beyond the largest one; of two
equally near ones, the one with an even mantissa. -/
def nearest? (numerator denominator : Nat) : Option Binary :=
  if numerator = 0 then some zero
  else
    let exponent := gridFor numerator denominator
    let (top, bottom) := onGrid numerator denominator exponent
    let rounded := carry ⟨roundNearest .toEven top bottom, exponent⟩
    if highest < rounded.exponent then none else some rounded

end Binary

namespace Decimal

def fraction (d : Decimal) : Nat × Nat :=
  (d.coefficient * powerOfTen d.exponent.toNat, powerOfTen (-d.exponent).toNat)

/-- How many digits stand before the point; negative when zeros follow the point. -/
def magnitude (d : Decimal) : Int :=
  (Nat.toDigits 10 d.coefficient).length + d.exponent

/-- The binary number nearest to the decimal, `none` beyond the largest one.  The two
early cases keep the powers of ten small. -/
def nearest? (d : Decimal) : Option Binary :=
  if d.coefficient = 0 ∨ d.magnitude < -330 then some Binary.zero
  else if 310 < d.magnitude then none
  else
    let (numerator, denominator) := d.fraction
    Binary.nearest? numerator denominator

end Decimal

end Rollout
