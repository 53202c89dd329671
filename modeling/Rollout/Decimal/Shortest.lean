import Rollout.Decimal.Basic

/-! The shortest decimal text of a binary number: the fewest digits that read back as that number,
and of those the ones nearest to it.  Which of two equally near ones is taken, and where an
exponent is used, are matters of style and given by a record. -/

namespace Rollout

namespace Binary

def compareScaled (a : Nat) (k : Int) (b : Nat) (e : Int) : Ordering :=
  compare (a * powerOfTen k.toNat * powerOfTwo (-e).toNat)
    (b * powerOfTwo e.toNat * powerOfTen (-k).toNat)

/-- Whether `candidate * 10 ^ k` is read as this number.  The interval reaches half
way to both neighbours; the lower neighbour is nearer where the grid changes, and
the ends belong to an even mantissa. -/
def readsBack (b : Binary) (candidate : Nat) (k : Int) : Bool :=
  let lower := 4 * b.mantissa -
    (if b.mantissa = powerOfTwo 52 ∧ lowest < b.exponent then 1 else 2)
  let upper := 4 * b.mantissa + 2
  let grid := b.exponent - 2
  let below := compareScaled candidate k lower grid
  let above := compareScaled candidate k upper grid
  if b.mantissa % 2 = 0 then below ≠ .lt && above ≠ .gt
  else below == .gt && above == .lt

def pointPosition (b : Binary) : Int :=
  let top := b.mantissa * powerOfTwo b.exponent.toNat
  let bottom := powerOfTwo (-b.exponent).toNat
  if bottom ≤ top then (Nat.toDigits 10 (top / bottom)).length
  else
    let reciprocal := (bottom + top - 1) / top
    1 - ((Nat.toDigits 10 (reciprocal - 1)).length : Int)

/-- The better of the two neighbours of the number on the grid of `10 ^ k`, if one
of them reads back. -/
def onDecimalGrid? (b : Binary) (tie : Tie) (k : Int) : Option Nat :=
  let top := b.mantissa * powerOfTwo b.exponent.toNat * powerOfTen (-k).toNat
  let bottom := powerOfTwo (-b.exponent).toNat * powerOfTen k.toNat
  let below := top / bottom
  let rounded := roundNearest tie top bottom
  if readsBack b rounded k then some rounded
  else if readsBack b below k then some below
  else if readsBack b (below + 1) k then some (below + 1)
  else none

def shortestFrom (b : Binary) (tie : Tie) (point : Int) (digits : Nat) : Nat → Nat × Int
  | 0 => (b.mantissa, 0)
  | more + 1 =>
      let k := point - digits
      match onDecimalGrid? b tie k with
      | some n => (n, k)
      | none => shortestFrom b tie point (digits + 1) more

/-- The shortest digits that read back, and the position of the point among them.
Seventeen digits always suffice. -/
def shortest (b : Binary) (tie : Tie) : List Char × Int :=
  if b.mantissa = 0 then (['0'], 1)
  else
    let (n, k) := shortestFrom b tie b.pointPosition 1 17
    let digits := Nat.toDigits 10 n
    ((digits.reverse.dropWhile (· == '0')).reverse, digits.length + k)

end Binary

/-- How a number is written.  An exponent is used nowhere, or wherever the position of
the point lies outside a window. -/
structure NumberStyle where
  window : Option (Int × Int)
  tie : Tie

namespace NumberStyle

/-- No exponent is ever written, and a tie goes up. -/
def positional : NumberStyle := ⟨none, .upward⟩

/-- An exponent is written from seventeen digits before the point on, and from five
zeros after it; a tie goes to the even neighbour. -/
def compact : NumberStyle := ⟨some (-4, 16), .toEven⟩

def isPositional (style : NumberStyle) (point : Int) : Bool :=
  match style.window with
  | none => true
  | some (low, high) => low ≤ point && point ≤ high

def placePoint (digits : List Char) (point : Int) : List Char :=
  if point ≤ 0 then
    '0' :: '.' :: (List.replicate (-point).toNat '0' ++ digits)
  else
    let padded := digits ++ List.replicate (point.toNat - digits.length) '0'
    let after := padded.drop point.toNat
    padded.take point.toNat ++ '.' :: (if after.isEmpty then ['0'] else after)

def signedExponent (exponent : Int) : List Char :=
  let digits := (toString exponent.natAbs).toList
  if exponent < 0 then '-' :: digits else '+' :: digits

def withExponent (digits : List Char) (point : Int) : List Char :=
  let exponent := signedExponent (point - 1)
  match digits with
  | [] => 'e' :: exponent
  | [digit] => digit :: 'e' :: exponent
  | digit :: rest => digit :: '.' :: (rest ++ 'e' :: exponent)

def write (style : NumberStyle) (negative : Bool) (b : Binary) : String :=
  let (digits, point) := b.shortest style.tie
  let body :=
    if style.isPositional point then placePoint digits point
    else withExponent digits point
  String.ofList (if negative then '-' :: body else body)

end NumberStyle

end Rollout
