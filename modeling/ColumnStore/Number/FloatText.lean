-- The text of a double. It is read from an optional sign, then `inf`,
-- `infinity` or `nan` in any case, or digits with at most one point and an
-- optional exponent. It is written with the fewest decimal digits that read back
-- as the same double: the double's neighbourhood is an interval of reals, its
-- ends included when the mantissa is even, and on the coarsest decimal grid that
-- meets the interval the point nearest to the double is taken.
import ColumnStore.Number.Binary64
import ColumnStore.Text.Integer

namespace ColumnStore.Number

open ColumnStore.Text (digitsValue)

/-! ## Reading -/

/-- What a number's text says, before it is rounded. -/
inductive FloatReading where
  | nan
  | infinite (negative : Bool)
  | finite (negative : Bool) (mantissa : Nat) (scale : Int)
  deriving DecidableEq, Repr

def FloatReading.toFloat : FloatReading → Float
  | .nan => 0.0 / 0.0
  | .infinite false => 1.0 / 0.0
  | .infinite true => -1.0 / 0.0
  | .finite negative mantissa scale => floatOfScientific negative mantissa scale

/-- An optional sign and the text behind it. -/
def splitSign : List Char → Bool × List Char
  | '-' :: cs => (true, cs)
  | '+' :: cs => (false, cs)
  | cs => (false, cs)

/-- The exponent that ends a number; no text is the exponent zero. -/
def readExponent : List Char → Option Int
  | [] => some 0
  | c :: cs =>
    if c = 'e' || c = 'E' then
      let (negative, ds) := splitSign cs
      if ds.isEmpty || !ds.all Char.isDigit then none
      else some (if negative then -(digitsValue ds : Int) else digitsValue ds)
    else none

/-- Digits, a point, digits and an exponent, with at least one digit before the exponent. -/
def readUnsigned (negative : Bool) (cs : List Char) : Option FloatReading :=
  let whole := cs.takeWhile Char.isDigit
  let rest := cs.dropWhile Char.isDigit
  let (fraction, rest) := match rest with
    | '.' :: r => (r.takeWhile Char.isDigit, r.dropWhile Char.isDigit)
    | r => ([], r)
  if whole.isEmpty && fraction.isEmpty then none
  else (readExponent rest).map fun e =>
    .finite negative (digitsValue (whole ++ fraction)) (e - fraction.length)

def readFloat? (cs : List Char) : Option FloatReading :=
  let (negative, rest) := splitSign cs
  let word := String.ofList (rest.map Char.toLower)
  if word = "nan" then some .nan
  else if word = "inf" || word = "infinity" then some (.infinite negative)
  else readUnsigned negative rest

/-- The double that the text denotes, if it is a number's text. -/
def float? (s : String) : Option Float := (readFloat? s.toList).map FloatReading.toFloat

/-! ## The fewest digits -/

/-- The digits and the power of ten behind them: `digits * 10 ^ scale`. -/
structure Scientific where
  digits : Nat
  scale : Int
  deriving DecidableEq, Repr

/-- An interval of reals around a value, all over one denominator. -/
structure Neighbourhood where
  low : Nat
  value : Nat
  high : Nat
  denominator : Nat
  closed : Bool

/-- The reals that round to the double. Below a power of two the next double is half as far. -/
def neighbourhood (b : Binary) : Neighbourhood :=
  let reach := if b.mantissa = leadingBit && b.exponent ≠ -1074 then 1 else 2
  let unit := Nat.pow 2 (b.exponent - 2).toNat
  { low := (4 * b.mantissa - reach) * unit
    value := 4 * b.mantissa * unit
    high := (4 * b.mantissa + 2) * unit
    denominator := Nat.pow 2 (2 - b.exponent).toNat
    closed := b.mantissa % 2 = 0 }

/-- The grid point of `10 ^ scale` nearest to the value, if one lies in the interval. -/
def Neighbourhood.onGrid (n : Neighbourhood) (tie : Tie) (scale : Int) : Option Nat :=
  let step := n.denominator * Nat.pow 10 scale.toNat
  let up := Nat.pow 10 (-scale).toNat
  let c := n.value * up / step
  let inside (d : Nat) : Bool :=
    if n.closed then n.low * up ≤ d * step && d * step ≤ n.high * up
    else n.low * up < d * step && d * step < n.high * up
  let twice := 2 * (n.value * up % step)
  let upper : Bool := step < twice || (twice = step && (tie = .up || c % 2 = 1))
  match inside c, inside (c + 1) with
  | true, true => some (if upper then c + 1 else c)
  | true, false => some c
  | false, true => some (c + 1)
  | false, false => none

/-- Tries ever finer grids; seventeen digits always suffice. -/
def Neighbourhood.search (n : Neighbourhood) (tie : Tie) : Nat → Int → Scientific
  | 0, scale => ⟨0, scale⟩
  | steps + 1, scale =>
    match n.onGrid tie scale with
    | some d => ⟨d, scale⟩
    | none => n.search tie steps (scale - 1)

/-- The fewest digits that read back as the double of this size. -/
def shortest (tie : Tie) (b : Binary) : Scientific :=
  if b.mantissa = 0 then ⟨0, 0⟩
  else
    let top : Int := ((4 * b.mantissa).log2 + b.exponent - 1) * 30103 / 100000 + 2
    (neighbourhood b).search tie 24 top

/-! ## Writing the digits -/

/-- Digits with the decimal point `point` places behind the first one, and no exponent. -/
def positional (digits : List Char) (point : Int) : List Char :=
  if point ≤ 0 then '0' :: '.' :: List.replicate (-point).toNat '0' ++ digits
  else if digits.length ≤ point then digits ++ List.replicate (point.toNat - digits.length) '0'
  else digits.take point.toNat ++ '.' :: digits.drop point.toNat

/-- A finite double without an exponent and without a trailing `.0`. -/
def plainFloat (f : Float) : String :=
  let s := shortest .up (.ofBits f.toBits)
  let ds := Nat.toDigits 10 s.digits
  let body := if s.digits = 0 then ['0'] else positional ds (ds.length + s.scale)
  .ofList (if isNegativeFloat f then '-' :: body else body)

end ColumnStore.Number
