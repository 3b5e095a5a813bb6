-- The types of values that an application declares on its columns, apart from
-- how the store writes them, and what a column says about its storage beyond
-- its type. An enumeration has named members with numeric codes, stored in one
-- byte or two.

namespace ColumnStore

/-! ## Enumerations -/

structure EnumMember where
  name : String
  code : Int64
  deriving DecidableEq, Repr

structure Enumeration where
  name : String
  members : List EnumMember
  deriving DecidableEq, Repr

/-- How wide the codes are stored. -/
inductive EnumWidth where
  | byte
  | word
  deriving DecidableEq, Repr

def EnumWidth.typeName : EnumWidth → String
  | byte => "Enum8"
  | word => "Enum16"

/-- The codes that the width holds. -/
def EnumWidth.holds (w : EnumWidth) (code : Int) : Bool :=
  match w with
  | byte => -128 ≤ code && code ≤ 127
  | word => -32768 ≤ code && code ≤ 32767

/-- The most members that the width has codes for. -/
def EnumWidth.capacity : EnumWidth → Nat
  | byte => 256
  | word => 65536

namespace Enumeration

def fits (e : Enumeration) (w : EnumWidth) : Bool :=
  e.members.length ≤ w.capacity && e.members.all fun m => w.holds m.code.toInt

/-- The narrowest width that holds every member. -/
def width? (e : Enumeration) : Option EnumWidth :=
  if e.fits .byte then some .byte else if e.fits .word then some .word else none

def contains (e : Enumeration) (name : String) : Bool := e.members.any (·.name = name)

/-- The first member with the code. -/
def withCode? (e : Enumeration) (code : Int64) : Option EnumMember :=
  e.members.find? (·.code = code)

end Enumeration

/-! ## Types -/

inductive ValueType where
  | bool
  | int8
  | int16
  | int32
  | int64
  | int128
  | uint8
  | uint16
  | uint32
  | uint64
  | uint128
  /-- 256 bits, signed unless the column says otherwise. -/
  | bigInteger
  | float32
  | float64
  | decimal
  | string
  | bytes
  | date
  | dateTime
  | dateTimeOffset
  | uuid
  | ipv4
  | ipv6
  | json
  | enumeration (e : Enumeration)
  | array (element : ValueType)
  | map (key value : ValueType)
  | tuple (items : List ValueType)
  /-- A record whose fields are stored as arrays side by side. -/
  | nested (name : String) (fields : List (String × ValueType))
  | nullable (inner : ValueType)
  /-- A type of the application that the store has nothing for. -/
  | other (name : String)

namespace ValueType

mutual

/-- The type as messages show it. -/
def display : ValueType → String
  | bool => "Bool"
  | int8 => "Int8"
  | int16 => "Int16"
  | int32 => "Int32"
  | int64 => "Int64"
  | int128 => "Int128"
  | uint8 => "UInt8"
  | uint16 => "UInt16"
  | uint32 => "UInt32"
  | uint64 => "UInt64"
  | uint128 => "UInt128"
  | bigInteger => "BigInteger"
  | float32 => "Float32"
  | float64 => "Float64"
  | decimal => "Decimal"
  | string => "String"
  | bytes => "Bytes"
  | date => "Date"
  | dateTime => "DateTime"
  | dateTimeOffset => "DateTimeOffset"
  | uuid => "Uuid"
  | ipv4 => "IpV4"
  | ipv6 => "IpV6"
  | json => "Json"
  | enumeration e => "enum " ++ e.name
  | array element => element.display ++ "[]"
  | map key value => "map<" ++ key.display ++ ", " ++ value.display ++ ">"
  | tuple items => "(" ++ ", ".intercalate (displayAll items) ++ ")"
  | nested name _ => "list<" ++ name ++ ">"
  | nullable inner => inner.display ++ "?"
  | other name => name

def displayAll : List ValueType → List String
  | [] => []
  | t :: ts => t.display :: displayAll ts

end

def isNullable : ValueType → Bool
  | nullable _ => true
  | _ => false

/-- The type below every layer of `nullable`. -/
def underlying : ValueType → ValueType
  | nullable inner => inner.underlying
  | t => t

/-! ## Classes of types, apart from whether they may be null -/

def isArray (t : ValueType) : Bool := match t.underlying with | array _ => true | _ => false

def isMap (t : ValueType) : Bool := match t.underlying with | map _ _ => true | _ => false

def isJson (t : ValueType) : Bool := match t.underlying with | json => true | _ => false

def isString (t : ValueType) : Bool := match t.underlying with | string => true | _ => false

def isTemporal (t : ValueType) : Bool :=
  match t.underlying with
  | date | dateTime | dateTimeOffset => true
  | _ => false

def isUnsigned (t : ValueType) : Bool :=
  match t.underlying with
  | uint8 | uint16 | uint32 | uint64 | uint128 => true
  | _ => false

def isFractional (t : ValueType) : Bool :=
  match t.underlying with
  | float32 | float64 | decimal => true
  | _ => false

def isInteger (t : ValueType) : Bool :=
  match t.underlying with
  | int8 | int16 | int32 | int64 | int128 | bigInteger => true
  | uint8 | uint16 | uint32 | uint64 | uint128 => true
  | _ => false

def isNumeric (t : ValueType) : Bool := t.isInteger || t.isFractional

/-- The type of an array's elements. -/
def element? (t : ValueType) : Option ValueType :=
  match t.underlying with
  | array element => some element
  | _ => none

end ValueType

/-! ## What a column and a provider say about storage -/

inductive DecimalStorage where
  | precision (precision scale : Nat)
  | decimal32 (scale : Nat)
  | decimal64 (scale : Nat)
  | decimal128 (scale : Nat)
  | decimal256 (scale : Nat)
  deriving DecidableEq, Repr

/-- The storage options of one column. -/
structure TypeOptions where
  decimal : Option DecimalStorage := none
  timePrecision : Option Nat := none
  timezone : Option String := none
  fixedLength : Option Nat := none
  lowCardinality : Bool := false
  /-- Nulls are stored as this default, and the column is not nullable. -/
  defaultForNull : Option String := none
  /-- Big integers are stored without a sign. -/
  unsignedBigInteger : Bool := false
  maxDynamicPaths : Option Nat := none
  maxDynamicTypes : Option Nat := none
  deriving DecidableEq, Repr

/-- What a column takes when its own options are silent. -/
structure TypeDefaults where
  decimalPrecision : Nat := 18
  decimalScale : Nat := 4
  timePrecision : Nat := 3
  timezone : Option String := none
  deriving DecidableEq, Repr

end ColumnStore
