-- Numbers as JSON writes and reads them. The digits are gathered into a word
-- of 64 bits as long as it has room, and what is left is a power of ten. A
-- number that is not whole is rounded twice, once as a word and once when the
-- power of ten comes in, so it may be a neighbour of the nearest double.
import ColumnStore.Number.FloatText

namespace ColumnStore.Number

/-! ## Writing -/

/-- The number as JSON text: an exponent outside `1e-5 ≤ x < 1e16`, always with a sign, and
always a fraction or an exponent. -/
def jsonFloat (f : Float) : String :=
  let s := shortest .even (.ofBits f.toBits)
  let ds := Nat.toDigits 10 s.digits
  let point : Int := ds.length + s.scale
  let body :=
    if s.digits = 0 then ['0', '.', '0']
    else if -5 < point && point ≤ 16 then
      if ds.length ≤ point then positional ds point ++ ['.', '0'] else positional ds point
    else
      let head := match ds with
        | [d] => [d]
        | d :: rest => d :: '.' :: rest
        | [] => []
      let sign := if 0 < point then ['+'] else []
      head ++ 'e' :: sign ++ (toString (point - 1)).toList
  .ofList (if isNegativeFloat f then '-' :: body else body)

example : jsonFloat 1e16 = "1e+16" := by decide +kernel

example : jsonFloat 1e-5 = "0.00001" := by decide +kernel

/-! ## Reading -/

inductive JsonNumber where
  | whole (n : Int)
  | real (f : Float)

/-- A number's text in its parts; one that is not written is missing. -/
structure JsonDigits where
  negative : Bool
  whole : List Char
  fraction : Option (List Char)
  exponent : Option Int
  deriving DecidableEq, Repr

/-- A minus sign or none, digits without a zero in front, a fraction and an exponent. -/
def JsonDigits.ofText? (cs : List Char) : Option JsonDigits :=
  let (negative, cs) := match cs with
    | '-' :: cs => (true, cs)
    | cs => (false, cs)
  let whole := cs.takeWhile Char.isDigit
  let (fraction, rest) := match cs.dropWhile Char.isDigit with
    | '.' :: cs => (some (cs.takeWhile Char.isDigit), cs.dropWhile Char.isDigit)
    | cs => (none, cs)
  if whole.isEmpty || (whole.head? = some '0' && whole ≠ ['0']) || fraction = some [] then none
  else if rest.isEmpty then some { negative, whole, fraction, exponent := none }
  else (readExponent rest).map fun e => { negative, whole, fraction, exponent := some e }

/-- The digits taken in behind the value `n` while the result fits 64 bits, and the digits that
are left. -/
def gather (n : Nat) : List Char → Nat × List Char
  | [] => (n, [])
  | c :: cs =>
    let m := 10 * n + (c.toNat - '0'.toNat)
    if m < Nat.pow 2 64 then gather m cs else (n, c :: cs)

def powerOfTen (n : Nat) : Float := floatOfScientific false 1 n

/-- Divides by `10 ^ n`, in steps of the largest power of ten that is a double. -/
def divideByTens (f : Float) (n : Nat) : Float :=
  if n ≤ 308 then f / powerOfTen n
  else if f == 0 then f
  else divideByTens (f / powerOfTen 308) (n - 308)
termination_by n

/-- Multiplies by `10 ^ e`, unless the result is too large for a double. -/
def scaleByTens? (f : Float) (e : Int) : Option Float :=
  if e < 0 then some (divideByTens f e.natAbs)
  else if e ≤ 308 then
    let g := f * powerOfTen e.toNat
    if g.isFinite then some g else none
  else if f == 0 then some f
  else none

/-- A number is whole if it has neither fraction nor exponent and is a word of 64 bits, signed
when it is negative; a negative zero is none. -/
def JsonDigits.number? (d : JsonDigits) : Option JsonNumber :=
  let fraction := d.fraction.getD []
  let (wholeWord, beyond) := gather 0 d.whole
  let (word, unread) := gather wholeWord fraction
  let bare : Bool := d.fraction.isNone && d.exponent.isNone && beyond.isEmpty
  if bare && !d.negative then some (.whole word)
  else if bare && 0 < word && word ≤ Nat.pow 2 63 then some (.whole (-word))
  else
    let read : Int := (fraction.length : Int) - unread.length
    let scale := beyond.length - read + d.exponent.getD 0
    (scaleByTens? (floatOfInt word) scale).map fun f => .real (if d.negative then -f else f)

/-- The number that the text denotes, if it is a number of JSON in the range of the doubles. -/
def readJsonNumber? (cs : List Char) : Option JsonNumber := do (← JsonDigits.ofText? cs).number?

end ColumnStore.Number
