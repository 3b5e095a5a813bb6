-- Constant values of queries, defaults and inserted rows: how they stand in SQL
-- text, and whether one may stand in a column. A column takes a null only where
-- it has room for one, no negative number if it is unsigned, and no name that is
-- no member of its enumeration.
import ColumnStore.Fault
import ColumnStore.Json
import ColumnStore.Number.Decimal
import ColumnStore.Number.FloatText
import ColumnStore.Text.Integer
import ColumnStore.Text.Quoted
import ColumnStore.Types.ValueType

namespace ColumnStore

open ColumnStore.Number
open ColumnStore.Text (padded)

/-! ## Days and moments -/

structure Date where
  year : Int
  month : Nat
  day : Nat
  deriving DecidableEq, Repr

/-- A second of 10 ^ 9 nanoseconds or more is a leap second. -/
structure Moment where
  date : Date
  hour : Nat
  minute : Nat
  second : Nat
  nanosecond : Nat
  deriving DecidableEq, Repr

def Date.text (d : Date) : String :=
  let year :=
    if d.year < 0 then "-" ++ padded 4 d.year.natAbs
    else if d.year ≤ 9999 then padded 4 d.year.natAbs
    else "+" ++ padded 4 d.year.natAbs
  year ++ "-" ++ padded 2 d.month ++ "-" ++ padded 2 d.day

/-- The moment to the millisecond; what is finer is cut off. A leap second is second 60. -/
def Moment.text (m : Moment) : String :=
  let second := m.second + m.nanosecond / 1000000000
  let milli := m.nanosecond % 1000000000 / 1000000
  m.date.text ++ " " ++ padded 2 m.hour ++ ":" ++ padded 2 m.minute ++ ":" ++ padded 2 second ++
    "." ++ padded 3 milli

/-! ## Identifiers of 128 bits -/

structure Uuid where
  bits : BitVec 128
  deriving DecidableEq, Repr

namespace Uuid

/-- The digits in lower case, in groups of 8, 4, 4, 4 and 12. -/
def text (u : Uuid) : String :=
  let ds := Nat.toDigits 16 u.bits.toNat
  let ds := List.replicate (32 - ds.length) '0' ++ ds
  let group (start size : Nat) : List Char := (ds.drop start).take size
  .ofList (group 0 8 ++ '-' :: group 8 4 ++ '-' :: group 12 4 ++ '-' :: group 16 4 ++
    '-' :: group 20 12)

/-- Reads the digits of either case; hyphens are passed over. -/
def ofText? (s : String) : Option Uuid := do
  let ds ← (s.toList.filter (· ≠ '-')).mapM Json.hexValue?
  if ds.length = 32 then some ⟨BitVec.ofNat 128 (ds.foldl (fun n d => 16 * n + d) 0)⟩ else none

end Uuid

/-! ## Numbers of any length -/

/-- A whole number of any length, as its digits were written. -/
structure BigInteger where
  negative : Bool
  digits : List Char
  nonempty : digits ≠ []
  areDigits : digits.all Char.isDigit = true

namespace BigInteger

def text (n : BigInteger) : String :=
  .ofList (if n.negative then '-' :: n.digits else n.digits)

/-- The digits behind an optional minus sign. -/
def ofText? (s : String) : Option BigInteger :=
  let (negative, ds) := match s.toList with
    | '-' :: ds => (true, ds)
    | ds => (false, ds)
  if h : ds ≠ [] ∧ ds.all Char.isDigit = true then some ⟨negative, ds, h.1, h.2⟩ else none

end BigInteger

inductive Value where
  | null
  | bool (b : Bool)
  | int (n : Int64)
  | uint (n : UInt64)
  | bigInt (n : BigInteger)
  | float (f : Float)
  | decimal (d : Decimal)
  | string (s : String)
  | date (d : Date)
  | moment (m : Moment)
  | uuid (u : Uuid)
  | json (j : Json)
  | array (items : List Value)

namespace Value

/-- A big integer from its digits. -/
def ofBigText (s : String) : Outcome Value :=
  match BigInteger.ofText? s with
  | some n => .ok (.bigInt n)
  | none => .error (.mapping "BigInteger" (.notInteger s))

def isNull : Value → Bool
  | null => true
  | _ => false

/-- Whether the value is written as less than zero. A big integer goes by its sign. -/
def isNegative : Value → Bool
  | int n => n < 0
  | bigInt n => n.negative
  | float f => f < 0.0
  | decimal d => d.negative && !d.isZero
  | _ => false

/-- The value as a signed word, where it is a word that has one. -/
def toInt64? : Value → Option Int64
  | int n => some n
  | uint n => if n.toNat < Nat.pow 2 63 then some (Int64.ofNat n.toNat) else none
  | _ => none

/-- The double nearest to a number; a decimal number is read from its text. -/
def toFloat? : Value → Option Float
  | int n => some (floatOfInt n.toInt)
  | uint n => some (floatOfInt n.toNat)
  | float f => some f
  | decimal d => float? d.text
  | _ => none

/-! ## Text -/

/-- A double; those that are no number have names in lower case. -/
def floatText (f : Float) : String :=
  if f.isNaN then "nan"
  else if f.isInf then (if f > 0.0 then "inf" else "-inf")
  else plainFloat f

mutual

/-- The value as it stands in SQL text. -/
def literal : Value → String
  | null => "NULL"
  | bool b => if b then "true" else "false"
  | int n => toString n.toInt
  | uint n => toString n.toNat
  | bigInt n => "toInt256(" ++ Text.literal n.text ++ ")"
  | float f => floatText f
  | decimal d => d.text
  | string s => Text.literal s
  | date d => "toDate(" ++ Text.literal d.text ++ ")"
  | moment m => "toDateTime64(" ++ Text.literal m.text ++ ", 3)"
  | uuid u => "toUUID(" ++ Text.literal u.text ++ ")"
  | json j => Text.literal j.text
  | array items => "[" ++ ", ".intercalate (literals items) ++ "]"

def literals : List Value → List String
  | [] => []
  | v :: vs => v.literal :: literals vs

end

/-! ## Types -/

mutual

/-- The column type under which the value is bound. An array takes its first element that is
not null. -/
def storeTypeText : Value → String
  | null => "Nullable(Nothing)"
  | bool _ => "Bool"
  | int _ => "Int64"
  | uint _ => "UInt64"
  | bigInt _ => "Int256"
  | float _ => "Float64"
  | decimal d => "Decimal(38, " ++ toString d.places ++ ")"
  | string _ => "String"
  | date _ => "Date"
  | moment _ => "DateTime64(3)"
  | uuid _ => "UUID"
  | json _ => "JSON"
  | array items => "Array(" ++ elementTypeText items ++ ")"

def elementTypeText : List Value → String
  | [] => "Nothing"
  | v :: vs => if v.isNull then elementTypeText vs else v.storeTypeText

end

mutual

/-- The value's type, where it has one. An array takes its first element that has one. -/
def type? : Value → Option ValueType
  | null => none
  | bool _ => some .bool
  | int _ => some .int64
  | uint _ => some .uint64
  | bigInt _ => some .bigInteger
  | float _ => some .float64
  | decimal _ => some .decimal
  | string _ => some .string
  | date _ => some .date
  | moment _ => some .dateTime
  | uuid _ => some .uuid
  | json _ => some .json
  | array items => (elementType? items).map .array

def elementType? : List Value → Option ValueType
  | [] => none
  | v :: vs => v.type?.or (elementType? vs)

end

end Value

/-! ## Values in columns -/

/-- Refuses a value that does not fit a column of the type and options. -/
def Value.validate (v : Value) (t : ValueType) (o : TypeOptions) : Outcome Unit :=
  if v.isNull then
    if t.isNullable || t.isJson || o.defaultForNull.isSome then .ok ()
    else .error (.mapping t.display .nullValue)
  else
    match t.underlying, v with
    | .bigInteger, v =>
      if o.unsignedBigInteger && v.isNegative then
        .error (.mapping "UInt256" (.negativeBig v.literal))
      else .ok ()
    | .enumeration e, .string name =>
      if e.contains name then .ok () else .error (.mapping e.name (.notMember name))
    | u, v =>
      if u.isUnsigned && v.isNegative then
        .error (.mapping t.display (.negativeUnsigned v.literal))
      else .ok ()

end ColumnStore
