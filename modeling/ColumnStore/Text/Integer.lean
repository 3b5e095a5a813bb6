-- Whole numbers read from text: an optional sign, then ASCII digits, in the
-- range of a machine word. The digits are read from the left, and the first
-- one that is no digit or leaves the range decides the fault.

namespace ColumnStore.Text

/-- Why a text is no whole number of a given width. -/
inductive IntegerFault where
  | empty
  | invalidDigit
  | tooLarge
  | tooSmall
  deriving DecidableEq, Repr

def IntegerFault.message : IntegerFault → String
  | .empty => "cannot parse integer from empty string"
  | .invalidDigit => "invalid digit found in string"
  | .tooLarge => "number too large to fit in target type"
  | .tooSmall => "number too small to fit in target type"

def digit? (c : Char) : Option Nat := if c.isDigit then some (c.toNat - '0'.toNat) else none

/-- Reads digits behind the value `n`; `beyond` is the fault of a value over `limit`. -/
def readDigits (limit : Nat) (beyond : IntegerFault) (n : Nat) : List Char → Except IntegerFault Nat
  | [] => .ok n
  | c :: cs =>
    match digit? c with
    | none => .error .invalidDigit
    | some d =>
      if limit < 10 * n + d then .error beyond else readDigits limit beyond (10 * n + d) cs

/-- Reads a signed word of 64 bits. -/
def readInt64 : List Char → Except IntegerFault Int64
  | [] => .error .empty
  | ['+'] => .error .invalidDigit
  | ['-'] => .error .invalidDigit
  | '+' :: cs => (readDigits (Nat.pow 2 63 - 1) .tooLarge 0 cs).map fun n => Int64.ofNat n
  | '-' :: cs => (readDigits (Nat.pow 2 63) .tooSmall 0 cs).map fun n => Int64.ofInt (-n)
  | cs => (readDigits (Nat.pow 2 63 - 1) .tooLarge 0 cs).map fun n => Int64.ofNat n

/-- Reads an unsigned word of 64 bits; a minus sign is no digit. -/
def readUInt64 : List Char → Except IntegerFault UInt64
  | [] => .error .empty
  | ['+'] => .error .invalidDigit
  | '+' :: cs => (readDigits (Nat.pow 2 64 - 1) .tooLarge 0 cs).map UInt64.ofNat
  | cs => (readDigits (Nat.pow 2 64 - 1) .tooLarge 0 cs).map UInt64.ofNat

/-- The value of a run of digits, of any length. -/
def digitsValue (cs : List Char) : Nat :=
  cs.foldl (fun n c => 10 * n + (c.toNat - '0'.toNat)) 0

/-- `n` in at least `width` digits, with zeros in front. -/
def padded (width n : Nat) : String :=
  let ds := Nat.toDigits 10 n
  .ofList (List.replicate (width - ds.length) '0' ++ ds)

end ColumnStore.Text
