-- Doubles as whole numbers times powers of two, and the double nearest to a
-- quotient of natural numbers.

namespace ColumnStore.Number

/-- Where a value exactly between two neighbours goes. -/
inductive Tie where
  | up
  | even
  deriving DecidableEq, Repr

/-- `a / b` rounded to the nearest whole number. -/
def roundQuotient (tie : Tie) (a b : Nat) : Nat :=
  let q := a / b
  let r := 2 * (a % b)
  if r < b then q
  else if b < r then q + 1
  else match tie with
    | .up => q + 1
    | .even => q + q % 2

/-- The size of a finite double: `mantissa * 2 ^ exponent`. -/
structure Binary where
  mantissa : Nat
  exponent : Int
  deriving DecidableEq, Repr

/-- The highest bit of a full mantissa, which the bits of a double leave out. -/
def leadingBit : Nat := Nat.pow 2 52

/-- The size of the double with these bits, its sign left out. -/
def Binary.ofBits (bits : UInt64) : Binary :=
  let fraction : Nat := bits.toNat % leadingBit
  let field : Nat := bits.toNat / leadingBit % Nat.pow 2 11
  if field = 0 then { mantissa := fraction, exponent := -1074 }
  else { mantissa := leadingBit + fraction, exponent := (field : Int) - 1075 }

def isNegativeFloat (f : Float) : Bool := f.toBits.toNat / Nat.pow 2 63 = 1

/-- The bits of the double nearest to `a / b`, a half to the even mantissa. A
mantissa that rounds up to the next power of two carries into the exponent field. -/
def nearestBits (a b : Nat) : Nat :=
  if a = 0 then 0
  else
    let guess : Int := (a.log2 : Int) - (b.log2 : Int) - 52
    let below : Bool := a * Nat.pow 2 (-guess).toNat < b * Nat.pow 2 guess.toNat * leadingBit
    let e : Int := max (-1074) (if below then guess - 1 else guess)
    let m := roundQuotient .even (a * Nat.pow 2 (-e).toNat) (b * Nat.pow 2 e.toNat)
    let bits := if m < leadingBit then m else (e + 1075).toNat * leadingBit + (m - leadingBit)
    min bits (2047 * leadingBit)

/-- The double nearest to the quotient, with a sign. -/
def nearestFloat (negative : Bool) (a b : Nat) : Float :=
  Float.ofBits (UInt64.ofNat (nearestBits a b + if negative then Nat.pow 2 63 else 0))

def floatOfInt (n : Int) : Float := nearestFloat (n < 0) n.natAbs 1

/-- The double nearest to `mantissa * 10 ^ scale`. The digits' number settles a
size far outside the range before a large power is built. -/
def floatOfScientific (negative : Bool) (mantissa : Nat) (scale : Int) : Float :=
  let size : Int := (Nat.toDigits 10 mantissa).length + scale
  if mantissa = 0 || size < -400 then nearestFloat negative 0 1
  else if 400 < size then nearestFloat negative (Nat.pow 2 1100) 1
  else nearestFloat negative (mantissa * Nat.pow 10 scale.toNat) (Nat.pow 10 (-scale).toNat)

end ColumnStore.Number
