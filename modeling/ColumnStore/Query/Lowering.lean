-- Query expressions lowered to SQL expressions. Each construct has a rule or
-- the whole lowering is refused; nothing is left out. Parameters are noted
-- where they are met, once for each name and with one type.
import ColumnStore.Query.Sql
import ColumnStore.Query.Typing
import ColumnStore.Types.ColumnType

namespace ColumnStore

/-- A parameter of a query with the column type that it is bound under. -/
structure BoundParameter where
  name : String
  storeType : String
  deriving DecidableEq, Repr

/-- Lowering notes parameters in the order in which they are first met. -/
abbrev Lowering := StateT (List BoundParameter) Outcome

namespace Lowering

def refuse {α : Type} (e : Expr) (cause : QueryCause) : Lowering α :=
  throw (.inexpressible e.describe cause)

/-! ## Leaves -/

/-- Notes a parameter under its type; a name met before must have the same one. -/
def bind (e : Expr) (name storeType : String) : Lowering Unit := do
  match (← get).find? (·.name = name) with
  | some known =>
    if known.storeType = storeType then pure ()
    else refuse e (.parameterTypes known.storeType storeType)
  | none => modify (· ++ [⟨name, storeType⟩])

def parameter (d : TypeDefaults) (e : Expr) (name : String) (type : ValueType) : Lowering Sql := do
  if Text.isPlainName name then
    let storeType ← d.resolve {} type
    bind e name storeType
    return .raw (Text.placeholder name storeType)
  else refuse e .parameterName

def boundVar (e : Expr) (bindings : Bindings) (name : String) : Lowering Sql :=
  if (bindings.lookup name).isSome then pure (.var name) else refuse e .unboundVariable

/-! ## Indices -/

/-- The one-based index of a zero-based one; negative indices count from the end in both. -/
def shiftIndex? (i : Int64) : Option Int64 :=
  if 0 ≤ i then exactInt64? (i.toInt + 1) else some i

def shiftedConstant (e : Expr) (i : Int64) : Lowering Sql :=
  match shiftIndex? i with
  | some shifted => pure (.raw (toString shifted.toInt))
  | none => refuse e (.indexOverflow i.toInt)

/-- A constant index is shifted here, any other by the query itself. -/
def shifted (e index : Expr) (lowered : Lowering Sql) : Lowering Sql :=
  match index.fold? with
  | some value =>
    match value.toInt64? with
    | some i => shiftedConstant e i
    | none => refuse e (.indexNotInteger value.literal)
  | none => do
    let i ← lowered
    return .function "if" [.binary i ">=" (.raw "0"), .binary i "+" (.raw "1"), i]

/-! ## Operands -/

/-- An operand beside one of an enumeration's type: codes become the members' names. -/
def against (peer : Option ValueType) (operand : Expr) (lowered : Lowering Sql) : Lowering Sql :=
  match peer.map ValueType.underlying with
  | some (.enumeration e) =>
    match operand with
    | .constant (.string name) =>
      if e.contains name then lowered else refuse operand (.nameNotInEnum name e.name)
    | .constant (.int code) => member e code
    | .constant (.uint code) =>
      match (Value.uint code).toInt64? with
      | some code => member e code
      | none => refuse operand (.codeBeyondEnum e.name)
    | _ => lowered
  | _ => lowered
where
  member (e : Enumeration) (code : Int64) : Lowering Sql :=
    match e.withCode? code with
    | some m => pure (.raw (Text.literal m.name))
    | none => refuse operand (.codeNotInEnum code.toInt e.name)

/-- Text is joined, whole numbers are divided as such, and all else is an operator. -/
def combine (op : Operator) (leftType rightType : Option ValueType) (l r : Sql) : Sql :=
  let either (p : ValueType → Bool) := leftType.any p || rightType.any p
  let both (p : ValueType → Bool) := leftType.any p && rightType.any p
  if op = .add && either ValueType.isString then .function "concat" [l, r]
  else if op = .div && both ValueType.isInteger then .function "intDiv" [l, r]
  else .binary l op.symbol r

/-! ## Receivers and members -/

/-- The class and the type of a receiver; both have to be known. -/
def receiver (e target : Expr) (bindings : Bindings) : Lowering (Receiver × ValueType) :=
  match target.type? bindings with
  | none => refuse e (.unknownType target.describe)
  | some type =>
    match Receiver.ofType? type with
    | none => refuse e (.noRules type.display)
    | some r => pure (r, type)

/-- The array that holds one field of a record's column, by default the first field. -/
def fieldArray (e target : Expr) (field : Option String) : Lowering Sql :=
  match target with
  | .column table name type =>
    match type.underlying with
    | .nested _ fields =>
      match field.or (fields.head?.map (·.1)) with
      | some field => pure (.identifier (Text.qualifiedName table (name ++ "." ++ field)))
      | none => refuse e .recordWithoutFields
    | _ => refuse e .notNested
  | _ => refuse e .nestedOffColumn

/-- Whether the type is a record with a field of the name. -/
def hasField (type : ValueType) (name : String) : Bool :=
  match type.underlying with
  | .nested _ fields => (fields.lookup name).isSome
  | _ => false

/-- A member other than a field. The store counts the days of a week from Monday as 1, the
application from Sunday as 0. -/
def memberOf (e target : Expr) (m : Member) (t : Sql) : Lowering Sql :=
  match m with
  | .nestedCount => do return .function "length" [← fieldArray e target none]
  | .arrayLength => pure (.function "length" [t])
  | .mapCount => pure (.function "length" [.function "mapKeys" [t]])
  | .mapKeys => pure (.function "mapKeys" [t])
  | .mapValues => pure (.function "mapValues" [t])
  | .stringLength => pure (.function "lengthUTF8" [t])
  | .datePart .dayOfWeek => pure (.binary (.function "toDayOfWeek" [t]) "%" (.raw "7"))
  | .datePart part => pure (.function part.function [t])

/-! ## Methods and functions -/

/-- How an argument of a method is lowered. -/
inductive Slot where
  | value
  | index
  /-- A lambda over the elements of the receiver. -/
  | selector
  deriving DecidableEq, Repr

/-- The arguments of a method, the last of which may be left out, and its SQL. -/
structure Signature where
  required : Nat
  slots : List Slot
  /-- The method works on a record's first field and not on the receiver itself. -/
  onField : Bool := false
  build : Sql → List Sql → Sql

/-- The receiver first, then the arguments. -/
def Signature.plain (function : String) (slots : List Slot) : Signature :=
  ⟨slots.length, slots, false, fun t as => .function function (t :: as)⟩

/-- A lambda in front of the receiver, or another function where there is none. -/
def Signature.selecting (required : Nat) (function : String) (bare : Sql → Sql) : Signature :=
  ⟨required, [.selector], false, fun t as =>
    match as with
    | [] => bare t
    | as => .function function (as ++ [t])⟩

def signature? : Method → Option Signature
  | .arrayContains => some (.plain "has" [.value])
  | .arrayAny => some (.selecting 0 "arrayExists" fun t => .function "notEmpty" [t])
  | .arrayAll => some (.selecting 1 "arrayAll" id)
  | .arrayFirst =>
    some (.selecting 0 "arrayFirst" fun t => .function "arrayElement" [t, .raw "1"])
  | .arrayLast =>
    some (.selecting 0 "arrayLast" fun t => .function "arrayElement" [t, .raw "-1"])
  | .arrayCount => some (.selecting 0 "arrayCount" fun t => .function "length" [t])
  | .arrayElementAt => some (.plain "arrayElement" [.index])
  | .arrayWhere => some (.selecting 1 "arrayFilter" id)
  | .arraySelect => some (.selecting 1 "arrayMap" id)
  | .arraySum => some (.selecting 0 "arraySum" fun t => .function "arraySum" [t])
  | .arrayMin => some (.selecting 0 "arrayMin" fun t => .function "arrayMin" [t])
  | .arrayMax => some (.selecting 0 "arrayMax" fun t => .function "arrayMax" [t])
  | .arrayDistinct => some (.plain "arrayDistinct" [])
  | .mapContainsKey => some (.plain "mapContains" [.value])
  | .mapContainsValue =>
    some ⟨1, [.value], false, fun t as => .function "has" (.function "mapValues" [t] :: as)⟩
  | .mapCount =>
    some ⟨0, [], false, fun t _ => .function "length" [.function "mapKeys" [t]]⟩
  | .nestedAny => some ⟨0, [], true, fun t _ => .function "notEmpty" [t]⟩
  | .nestedCount => some ⟨0, [], true, fun t _ => .function "length" [t]⟩
  | .stringContains =>
    some ⟨1, [.value], false, fun t as => .binary (.function "position" (t :: as)) ">" (.raw "0")⟩
  | .stringStartsWith => some (.plain "startsWith" [.value])
  | .stringEndsWith => some (.plain "endsWith" [.value])
  | .stringToUpper => some (.plain "upperUTF8" [])
  | .stringToLower => some (.plain "lowerUTF8" [])
  | .stringTrim => some (.plain "trimBoth" [])
  | .stringTrimStart => some (.plain "trimLeft" [])
  | .stringTrimEnd => some (.plain "trimRight" [])
  | .stringSubstring => some { Signature.plain "substringUTF8" [.index, .value] with required := 1 }
  | .stringReplace => some (.plain "replaceAll" [.value, .value])
  | .dateAdd unit => some (.plain unit.function [.value])
  | .stringIsNullOrEmpty => none
  | .mathAbs | .mathRound | .mathFloor | .mathCeiling | .mathMax | .mathMin => none

/-- A static function's name and the numbers of arguments that it takes. Halves are rounded to
the even neighbour. -/
def mathFunction? : Method → Option (String × List Nat)
  | .mathAbs => some ("abs", [1])
  | .mathRound => some ("roundBankers", [1, 2])
  | .mathFloor => some ("floor", [1])
  | .mathCeiling => some ("ceil", [1])
  | .mathMax => some ("greatest", [2])
  | .mathMin => some ("least", [2])
  | _ => none

/-- A static function on lowered arguments. A text that may be null is tested as the empty one. -/
def staticCall (e : Expr) (m : Method) (nullable : Bool) (arguments : List Sql) : Lowering Sql :=
  match m with
  | .stringIsNullOrEmpty =>
    match arguments with
    | [value] =>
      let value := if nullable then .function "ifNull" [value, .raw "''"] else value
      pure (.function "empty" [value])
    | _ => refuse e (.functionArity arguments.length)
  | m =>
    match mathFunction? m with
    | none => refuse e .instanceMethod
    | some (name, counts) =>
      if counts.contains arguments.length then pure (.function name arguments)
      else refuse e (.functionArity arguments.length)

/-! ## Indexers and paths -/

/-- An indexed value; the index is one-based unless it is a map's key. -/
def indexed (r : Receiver) (target index : Sql) : Sql :=
  match r with
  | .array => .function "arrayElement" [target, index]
  | .string => .function "substringUTF8" [target, index, .raw "1"]
  | _ => .subscript target index

/-- The value at the end of a path from `base`. -/
def alongPath (e : Expr) (base : Sql) : List JsonSegment → Lowering Sql
  | [] => pure base
  | .key name :: path => alongPath e (.subcolumn base (Text.quoteName name)) path
  | .index i :: path => do alongPath e (.subscript base (← shiftedConstant e i)) path

end Lowering

open Lowering

mutual

/-- The SQL of the expression where the bindings are in scope. -/
def Expr.lower (d : TypeDefaults) (bindings : Bindings) : Expr → Lowering Sql
  | .column table name _ => pure (.identifier (Text.qualifiedName table name))
  | .constant value => pure (.raw value.literal)
  | .parameter name type => parameter d (.parameter name type) name type
  | .var name => boundVar (.var name) bindings name
  | .lambda ps body => refuse (.lambda ps body) .strayLambda
  | .binary op left right =>
    if (op = .eq || op = .ne) && right.isNullConstant then do
      return .isNull (← left.lower d bindings) (op = .ne)
    else if (op = .eq || op = .ne) && left.isNullConstant then do
      return .isNull (← right.lower d bindings) (op = .ne)
    else do
      let leftType := left.type? bindings
      let rightType := right.type? bindings
      let l ← against rightType left (left.lower d bindings)
      let r ← against leftType right (right.lower d bindings)
      return combine op leftType rightType l r
  | .not operand => do return .not (← operand.lower d bindings)
  | .negate operand => do return .negate (← operand.lower d bindings)
  | .member target name => do
    let e := Expr.member target name
    let (r, type) ← receiver e target bindings
    if r = .json then return .subcolumn (← target.lower d bindings) (Text.quoteName name)
    else if hasField type name then fieldArray e target (some name)
    else match Member.ofName? r name with
      | none => refuse e (.unknownMember name type.display)
      | some m => memberOf e target m (← target.lower d bindings)
  | .call target method arguments => do
    let e := Expr.call target method arguments
    let (r, type) ← receiver e target bindings
    match Method.ofName? r method with
    | none => refuse e (.unknownMethod method type.display)
    | some m =>
      let t ← target.lower d bindings
      match signature? m with
      | none => refuse e .staticFunction
      | some s =>
        if arguments.length < s.required || s.slots.length < arguments.length then
          refuse e (.methodArity method arguments.length)
        else
          let subject ← if s.onField then fieldArray e target none else pure t
          return s.build subject (← lowerArguments d bindings e type.element? s.slots arguments)
  | .function cls name arguments => do
    let e := Expr.function cls name arguments
    match (Receiver.ofClass? cls).bind (Method.ofName? · name) with
    | none => refuse e .unknownFunction
    | some m =>
      let lowered ← lowerAll d bindings arguments
      let nullable := match arguments with
        | [] => true
        | first :: _ => ((first.type? bindings).map ValueType.isNullable).getD true
      staticCall e m nullable lowered
  | .index target index => do
    let e := Expr.index target index
    let (r, _) ← receiver e target bindings
    match r with
    | .array | .string | .json => do
      let i ← shifted e index (index.lower d bindings)
      return indexed r (← target.lower d bindings) i
    | .map => do
      let t ← target.lower d bindings
      return indexed r t (← index.lower d bindings)
    | _ => refuse e .notIndexable
  | .jsonPath target path =>
    if (target.type? bindings).any ValueType.isJson then do
      alongPath (.jsonPath target path) (← target.lower d bindings) path
    else refuse (.jsonPath target path) .pathOffJson
  | .conditional test whenTrue whenFalse => do
    let test ← test.lower d bindings
    let whenTrue ← whenTrue.lower d bindings
    let whenFalse ← whenFalse.lower d bindings
    return .function "if" [test, whenTrue, whenFalse]
  | .coalesce left right => do
    let left ← left.lower d bindings
    let right ← right.lower d bindings
    return .function "ifNull" [left, right]
  | .convert operand type => do
    let operand ← operand.lower d bindings
    let typeName ← d.resolve {} type
    return .cast operand typeName
  | .foreign description => refuse (.foreign description) .opaqueConstruct

/-- A static function's arguments. -/
def lowerAll (d : TypeDefaults) (bindings : Bindings) : List Expr → Lowering (List Sql)
  | [] => pure []
  | e :: es => do
    let first ← e.lower d bindings
    let rest ← lowerAll d bindings es
    return first :: rest

/-- A method's arguments by their slots. A selector's parameter ranges over the elements. -/
def lowerArguments (d : TypeDefaults) (bindings : Bindings) (call : Expr)
    (element : Option ValueType) (slots : List Slot) : List Expr → Lowering (List Sql)
  | [] => pure []
  | e :: es => do
    let first ← match slots.head?, e with
      | some .selector, .lambda [p] body =>
        if Text.isPlainName p then Sql.lambda [p] <$> body.lower d ((p, element) :: bindings)
        else refuse (.lambda [p] body) .lambdaParameterName
      | some .selector, .lambda _ _ => refuse call .lambdaArity
      | some .selector, _ => refuse call .lambdaExpected
      | some .index, e => shifted call e (e.lower d bindings)
      | _, e => e.lower d bindings
    let rest ← lowerArguments d bindings call element slots.tail es
    return first :: rest

end

/-- SQL text and the parameters that it is run with. -/
structure PreparedQuery where
  sql : String
  parameters : List BoundParameter
  deriving DecidableEq, Repr

/-- A standalone expression, such as a filter or a projection. -/
def Expr.prepare (d : TypeDefaults) (e : Expr) : Outcome PreparedQuery := do
  let (sql, parameters) ← (e.lower d []).run []
  return ⟨sql.render, parameters⟩

end ColumnStore
