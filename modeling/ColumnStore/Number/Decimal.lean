-- Decimal numbers of fixed width: a sign, a coefficient of 96 bits and up to
-- 28 decimal places. A number keeps its places, so 12.50 differs from 12.5 in
-- writing. A result that needs more room is rounded, a half to even, to the
-- most places that fit.
import ColumnStore.Number.Binary64
import ColumnStore.Text.Integer

namespace ColumnStore.Number

open ColumnStore.Text (digitsValue)

/-- `± coefficient / 10 ^ places`; zero has a sign as well. -/
structure Decimal where
  negative : Bool
  coefficient : Nat
  places : Nat
  coefficient_lt : coefficient < Nat.pow 2 96 := by decide
  places_le : places ≤ 28 := by decide
  deriving DecidableEq, Repr

namespace Decimal

def zero : Decimal := ⟨false, 0, 0, by decide, by decide⟩

def isZero (d : Decimal) : Bool := d.coefficient = 0

/-- The whole number of units of `10 ^ -places` that the number has at its own places. -/
def units (d : Decimal) : Int := if d.negative then -(d.coefficient : Int) else d.coefficient

/-- The nearest number to `a / b` with exactly `places` places, if it has room. -/
def atPlaces (tie : Tie) (negative : Bool) (a b places : Nat) : Option Decimal :=
  let c := roundQuotient tie (a * Nat.pow 10 places) b
  if h : c < Nat.pow 2 96 ∧ places ≤ 28 then some ⟨negative && c != 0, c, places, h.1, h.2⟩
  else none

/-- The nearest number to `a / b` with the most places, at most `places`, that has room. -/
def round? (tie : Tie) (negative : Bool) (a b : Nat) : Nat → Option Decimal
  | 0 => atPlaces tie negative a b 0
  | p + 1 => (atPlaces tie negative a b (p + 1)).or (round? tie negative a b p)

/-- The sum of two numbers of units at a common number of places. -/
def ofUnits? (n : Int) (places : Nat) : Option Decimal :=
  round? .even (n < 0) n.natAbs (Nat.pow 10 places) (min places 28)

/-- The units of the number at more places than its own. -/
def unitsAt (d : Decimal) (places : Nat) : Int := d.units * (Nat.pow 10 (places - d.places) : Nat)

def neg (d : Decimal) : Decimal := { d with negative := !d.negative }

/-- The sum at the places of the operand that has more. A zero adds neither value nor places. -/
def add? (x y : Decimal) : Option Decimal :=
  if x.isZero then some y
  else if y.isZero then some x
  else
    let p := max x.places y.places
    ofUnits? (x.unitsAt p + y.unitsAt p) p

/-- The difference, as `add?` has it; a zero less a zero is the second one as it stands. -/
def sub? (x y : Decimal) : Option Decimal :=
  if x.isZero then some (if y.isZero then y else y.neg)
  else if y.isZero then some x
  else
    let p := max x.places y.places
    ofUnits? (x.unitsAt p - y.unitsAt p) p

/-- Whether the coefficient has at most 32 bits. -/
def isShort (d : Decimal) : Bool := d.coefficient < Nat.pow 2 32

def withSign (negative : Bool) (d : Decimal) : Decimal := { d with negative }

/-- A zero factor gives zero without places, and so do two short factors with more than 47
places, whose product is out of reach of 28 places. Other short factors give a zero without a
sign where the product is rounded away; with a longer factor that zero keeps its sign. -/
def mul? (x y : Decimal) : Option Decimal :=
  let places := x.places + y.places
  let product := ofUnits? (x.units * y.units) places
  if x.isZero || y.isZero then some zero
  else if !(x.isShort && y.isShort) then product.map (withSign (x.negative != y.negative))
  else if 47 < places then some zero
  else product

/-- The fewest places, at most `p`, that hold `c` units of `10 ^ -p`. -/
def neededPlaces (c : Nat) : Nat → Nat
  | 0 => 0
  | p + 1 => if c % 10 = 0 then neededPlaces (c / 10) p else p + 1

/-- The same number without zeros at the end of its places. -/
def reduced? (d : Decimal) : Option Decimal :=
  atPlaces .even d.negative d.coefficient (Nat.pow 10 d.places)
    (neededPlaces d.coefficient d.places)

/-- A quotient that ends within the dividend's extra places keeps them; any other takes all the
places it can and then loses the zeros at its end. -/
def div? (x y : Decimal) : Option Decimal :=
  if y.isZero then none
  else if x.isZero then some zero
  else
    let negative := x.negative != y.negative
    let a := x.coefficient * Nat.pow 10 y.places
    let b := y.coefficient * Nat.pow 10 x.places
    let extra := x.places - y.places
    if a * Nat.pow 10 extra % b = 0 then atPlaces .even negative a b extra
    else (round? .even negative a b 28).bind reduced?

/-- The coefficient's digits with the point before the last `places` of them. -/
def text (d : Decimal) : String :=
  let ds := Nat.toDigits 10 d.coefficient
  let ds := List.replicate (d.places + 1 - ds.length) '0' ++ ds
  let whole := ds.take (ds.length - d.places)
  let body := if d.places = 0 then whole else whole ++ '.' :: ds.drop (ds.length - d.places)
  .ofList (if d.negative then '-' :: body else body)

/-- Whether a character may stand behind the first digit. -/
def isDigitOrBar (c : Char) : Bool := c.isDigit || c = '_'

/-- Reads digits with at most one point; underscores behind a digit are passed over. Places that
have no room are rounded away, a half up, and a zero is read without a sign. -/
def ofText? (s : String) : Option Decimal :=
  let (negative, cs) := match s.toList with
    | '-' :: cs => (true, cs)
    | '+' :: cs => (false, cs)
    | cs => (false, cs)
  let whole := cs.takeWhile isDigitOrBar
  let (fraction, rest) := match cs.dropWhile isDigitOrBar with
    | '.' :: r => (r.takeWhile isDigitOrBar, r.dropWhile isDigitOrBar)
    | r => ([], r)
  if !rest.isEmpty || !((whole ++ fraction).head?.any Char.isDigit) then none
  else
    let fraction := fraction.filter Char.isDigit
    let n := digitsValue (whole.filter Char.isDigit ++ fraction)
    round? .up (negative && n != 0) n (Nat.pow 10 fraction.length) (min fraction.length 28)

end Decimal

end ColumnStore.Number
