-- Arithmetic on constants. Two words stay a word and fail where the exact
-- result is out of range; two decimals stay a decimal; any other two numbers
-- are calculated as doubles, and only a finite result counts.
import ColumnStore.Value.Basic

namespace ColumnStore

open ColumnStore.Number

/-- The operations that constants are calculated with. -/
inductive Arithmetic where
  | add
  | sub
  | mul
  | div
  deriving DecidableEq, Repr

/-- The word of a whole number, if it has one. -/
def exactInt64? (n : Int) : Option Int64 :=
  if Int64.minValue.toInt ≤ n ∧ n ≤ Int64.maxValue.toInt then some (Int64.ofInt n) else none

namespace Arithmetic

/-- The exact result; a quotient goes toward zero. -/
def onInt64? (op : Arithmetic) (a b : Int64) : Option Int64 :=
  match op with
  | add => exactInt64? (a.toInt + b.toInt)
  | sub => exactInt64? (a.toInt - b.toInt)
  | mul => exactInt64? (a.toInt * b.toInt)
  | div => if b = 0 then none else exactInt64? (a.toInt.tdiv b.toInt)

def onDecimal? (op : Arithmetic) (a b : Decimal) : Option Decimal :=
  match op with
  | add => a.add? b
  | sub => a.sub? b
  | mul => a.mul? b
  | div => a.div? b

def onFloat (op : Arithmetic) (a b : Float) : Float :=
  match op with
  | add => a + b
  | sub => a - b
  | mul => a * b
  | div => a / b

def onValues? (op : Arithmetic) : Value → Value → Option Value
  | .int a, .int b => (op.onInt64? a b).map .int
  | .decimal a, .decimal b => (op.onDecimal? a b).map .decimal
  | a, b => do
    let x ← a.toFloat?
    let y ← b.toFloat?
    let r := op.onFloat x y
    if r.isFinite then some (.float r) else none

end Arithmetic

/-- The negative of a signed number. -/
def Value.negate? : Value → Option Value
  | .int n => (exactInt64? (-n.toInt)).map .int
  | .float f => some (.float (-f))
  | .decimal d => some (.decimal d.neg)
  | _ => none

end ColumnStore
