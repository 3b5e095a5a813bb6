-- Column types as the store writes them, a tree and its text, and the column
-- type of a value type. The base type of a column stands inside `Nullable` where
-- nulls are stored as such, and `LowCardinality` stands around both; composite
-- types and JSON are never inside `Nullable`.
import ColumnStore.Fault
import ColumnStore.Text.Quoted
import ColumnStore.Types.ValueType

namespace ColumnStore

/-! ## Types of the store -/

inductive StoreType where
  /-- A name, with plain arguments such as lengths, precisions and time zones. -/
  | scalar (name : String) (arguments : List String)
  | enumeration (width : EnumWidth) (members : List EnumMember)
  | array (element : StoreType)
  | map (key value : StoreType)
  | tuple (items : List StoreType)
  | nested (fields : List (String × StoreType))
  | nullable (inner : StoreType)
  | lowCardinality (inner : StoreType)

namespace StoreType

/-- A name and its arguments, which stand in parentheses if there are any. -/
def applied (name : String) (arguments : List String) : String :=
  if arguments.isEmpty then name else name ++ "(" ++ ", ".intercalate arguments ++ ")"

def memberText (m : EnumMember) : String := Text.literal m.name ++ " = " ++ toString m.code.toInt

def name : StoreType → String
  | scalar name _ => name
  | enumeration width _ => width.typeName
  | array _ => "Array"
  | map _ _ => "Map"
  | tuple _ => "Tuple"
  | nested _ => "Nested"
  | nullable _ => "Nullable"
  | lowCardinality _ => "LowCardinality"

mutual

def render : StoreType → String
  | scalar name arguments => applied name arguments
  | enumeration width members => applied width.typeName (members.map memberText)
  | array element => applied "Array" [element.render]
  | map key value => applied "Map" [key.render, value.render]
  | tuple items => applied "Tuple" (renderAll items)
  | nested fields => applied "Nested" (renderFields fields)
  | nullable inner => applied "Nullable" [inner.render]
  | lowCardinality inner => applied "LowCardinality" [inner.render]

def renderAll : List StoreType → List String
  | [] => []
  | t :: ts => t.render :: renderAll ts

def renderFields : List (String × StoreType) → List String
  | [] => []
  | (name, t) :: fs => (name ++ " " ++ t.render) :: renderFields fs

end

/-- The rendered arguments of the outermost type. -/
def arguments : StoreType → List String
  | scalar _ arguments => arguments
  | enumeration _ members => members.map memberText
  | array element => [element.render]
  | map key value => [key.render, value.render]
  | tuple items => renderAll items
  | nested fields => renderFields fields
  | nullable inner => [inner.render]
  | lowCardinality inner => [inner.render]

/-- The outermost name applied to the arguments is the whole text. -/
theorem render_eq_applied (t : StoreType) : t.render = applied t.name t.arguments := by
  cases t <;> rfl

end StoreType

/-! ## Types of columns -/

/-- A column's base type and the wrappers around it. -/
structure ColumnType where
  base : StoreType
  nullable : Bool
  lowCardinality : Bool

namespace ColumnType

def storeType (c : ColumnType) : StoreType :=
  let inner := if c.nullable then .nullable c.base else c.base
  if c.lowCardinality then .lowCardinality inner else inner

def render (c : ColumnType) : String := c.storeType.render

end ColumnType

namespace ValueType

/-- Whether the store has `Nullable` around the type. -/
def allowsNullable : ValueType → Bool
  | json | array _ | map _ _ | tuple _ | nested _ _ => false
  | _ => true

/-- Whether the store has `LowCardinality` around the type. -/
def allowsLowCardinality : ValueType → Bool
  | string | bytes | date | dateTime | dateTimeOffset | float32 | float64 => true
  | int8 | int16 | int32 | int64 | int128 => true
  | uint8 | uint16 | uint32 | uint64 | uint128 => true
  | _ => false

/-- The items of a tuple, where an eighth item that is a tuple continues the items. -/
def flattenItems : List ValueType → List ValueType
  | [a, b, c, d, e, f, g, tuple rest] => [a, b, c, d, e, f, g] ++ flattenItems rest
  | items => items

end ValueType

namespace TypeDefaults

def refuse {α : Type} (type : String) (cause : MappingCause) : Outcome α :=
  .error (.mapping type cause)

/-! ## Types with arguments of their own -/

def precisionType (precision scale : Nat) : Outcome StoreType :=
  if precision = 0 || 76 < precision then refuse "Decimal" (.precisionRange precision)
  else if precision < scale then refuse "Decimal" (.scaleOverPrecision scale precision)
  else pure (.scalar "Decimal" [toString precision, toString scale])

def fixedScaleType (name : String) (scale maximum : Nat) : Outcome StoreType :=
  if maximum < scale then refuse name (.scaleOverMaximum scale maximum)
  else pure (.scalar name [toString scale])

def decimalType (d : TypeDefaults) (o : TypeOptions) : Outcome StoreType :=
  match o.decimal with
  | none => precisionType d.decimalPrecision d.decimalScale
  | some (.precision precision scale) => precisionType precision scale
  | some (.decimal32 scale) => fixedScaleType "Decimal32" scale 9
  | some (.decimal64 scale) => fixedScaleType "Decimal64" scale 18
  | some (.decimal128 scale) => fixedScaleType "Decimal128" scale 38
  | some (.decimal256 scale) => fixedScaleType "Decimal256" scale 76

/-- A moment of time with its precision and its zone, where one is set. -/
def timeType (d : TypeDefaults) (o : TypeOptions) (zone : Option String) : Outcome StoreType :=
  let precision := o.timePrecision.getD d.timePrecision
  if 9 < precision then refuse "DateTime64" (.timePrecision precision)
  else
    let zone := (o.timezone.or zone).map Text.literal
    pure (.scalar "DateTime64" (toString precision :: zone.toList))

def stringType (o : TypeOptions) : Outcome StoreType :=
  match o.fixedLength with
  | none => pure (.scalar "String" [])
  | some 0 => refuse "FixedString" .emptyFixedString
  | some n => pure (.scalar "FixedString" [toString n])

def jsonType (o : TypeOptions) : StoreType :=
  .scalar "JSON" ((o.maxDynamicPaths.map fun n => "max_dynamic_paths=" ++ toString n).toList ++
    (o.maxDynamicTypes.map fun n => "max_dynamic_types=" ++ toString n).toList)

def enumType (e : Enumeration) : Outcome StoreType :=
  if e.members.isEmpty then refuse e.name .emptyEnum
  else match e.width? with
    | none => refuse e.name .wideEnum
    | some width => pure (.enumeration width e.members)

/-! ## All types -/

mutual

/-- The store's type, with `Nullable` around every nullable part that allows it. -/
def storeType (d : TypeDefaults) (o : TypeOptions) : ValueType → Outcome StoreType
  | .bool => pure (.scalar "Bool" [])
  | .int8 => pure (.scalar "Int8" [])
  | .int16 => pure (.scalar "Int16" [])
  | .int32 => pure (.scalar "Int32" [])
  | .int64 => pure (.scalar "Int64" [])
  | .int128 => pure (.scalar "Int128" [])
  | .uint8 => pure (.scalar "UInt8" [])
  | .uint16 => pure (.scalar "UInt16" [])
  | .uint32 => pure (.scalar "UInt32" [])
  | .uint64 => pure (.scalar "UInt64" [])
  | .uint128 => pure (.scalar "UInt128" [])
  | .bigInteger => pure (.scalar (if o.unsignedBigInteger then "UInt256" else "Int256") [])
  | .float32 => pure (.scalar "Float32" [])
  | .float64 => pure (.scalar "Float64" [])
  | .decimal => d.decimalType o
  | .string => stringType o
  | .bytes => pure (.scalar "String" [])
  | .date => pure (.scalar "Date" [])
  | .dateTime => d.timeType o d.timezone
  | .dateTimeOffset => d.timeType o (some (d.timezone.getD "UTC"))
  | .uuid => pure (.scalar "UUID" [])
  | .ipv4 => pure (.scalar "IPv4" [])
  | .ipv6 => pure (.scalar "IPv6" [])
  | .json => pure (jsonType o)
  | .enumeration e => enumType e
  | .array element => do return .array (← d.storeType o element)
  | .map key value =>
    if key.isNullable then refuse (ValueType.map key value).display .nullableKey
    else do
      let key ← d.storeType o key
      let value ← d.storeType o value
      return .map key value
  | .tuple items =>
    if items.isEmpty then refuse (ValueType.tuple items).display .emptyTuple
    else do return .tuple (← d.itemTypes o (items.length == 8) items)
  | .nested name fields =>
    if fields.isEmpty then refuse name .emptyRecord
    else do return .nested (← d.fieldTypes o fields)
  | .nullable inner =>
    if inner.isNullable then refuse (ValueType.nullable inner).display .nestedNullable
    else do
      let base ← d.storeType o inner
      return if inner.allowsNullable then .nullable base else base
  | .other name => refuse name .unmapped

/-- The types of a tuple's items. Of eight items, a tuple in the last place continues them. -/
def itemTypes (d : TypeDefaults) (o : TypeOptions) (eight : Bool) :
    List ValueType → Outcome (List StoreType)
  | [] => pure []
  | [.tuple rest] =>
    if eight then d.itemTypes o (rest.length == 8) rest
    else do return [← d.storeType o (.tuple rest)]
  | item :: items => do
    let first ← d.storeType o item
    let rest ← d.itemTypes o eight items
    return first :: rest

def fieldTypes (d : TypeDefaults) (o : TypeOptions) :
    List (String × ValueType) → Outcome (List (String × StoreType))
  | [] => pure []
  | (name, type) :: fields => do
    let first ← d.storeType o type
    let rest ← d.fieldTypes o fields
    return (name, first) :: rest

end

/-- The column type of a value type under a column's options. -/
def columnType (d : TypeDefaults) (o : TypeOptions) (t : ValueType) : Outcome ColumnType := do
  let stored ← d.storeType o t
  let (base, nullable) := match stored with
    | .nullable base => (base, true)
    | base => (base, false)
  let inner := match t with
    | .nullable inner => inner
    | t => t
  if o.lowCardinality && !inner.allowsLowCardinality then
    refuse t.display .misplacedLowCardinality
  else
    return ⟨base, nullable && o.defaultForNull.isNone, o.lowCardinality⟩

/-- The text of the column type. -/
def resolve (d : TypeDefaults) (o : TypeOptions) (t : ValueType) : Outcome String := do
  return (← d.columnType o t).render

end TypeDefaults

end ColumnStore
