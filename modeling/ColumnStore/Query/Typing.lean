-- The static type of an expression, where it can be told without running it.
-- Names bound by lambdas have the element type of the collection they range
-- over.
import ColumnStore.Query.Expr
import ColumnStore.Query.Method

namespace ColumnStore

/-- The lambda parameters in scope, the innermost first, with their types where known. -/
abbrev Bindings := List (String × Option ValueType)

namespace Method

/-- The type of a method's result on a receiver of the type. The type of a projection is
unknown without its body. -/
def resultType? (m : Method) (target : ValueType) : Option ValueType :=
  match m with
  | arrayFirst | arrayLast | arrayElementAt | arrayMin | arrayMax | arraySum => target.element?
  | arrayWhere | arrayDistinct => some target
  | arraySelect => none
  | arrayCount | mapCount | nestedCount => some .uint64
  | stringToUpper | stringToLower | stringTrim | stringTrimStart | stringTrimEnd => some .string
  | stringSubstring | stringReplace => some .string
  | dateAdd _ => some target
  | _ => some .bool

end Method

namespace Member

def resultType (m : Member) (target : ValueType) : ValueType :=
  match m, target.underlying with
  | mapKeys, .map key _ => .array key
  | mapValues, .map _ value => .array value
  | datePart .date, _ => .date
  | datePart _, _ => .int32
  | _, _ => .uint64

end Member

namespace Expr

/-- The type of a member of a JSON value, of a record or of a collection. -/
def memberType? (target : ValueType) (name : String) : Option ValueType :=
  match target.underlying with
  | .json => some .json
  | .nested _ fields =>
    match fields.lookup name with
    | some t => some (.array t)
    | none => do (← Member.ofName? (← Receiver.ofType? target) name).resultType target
  | _ => do (← Member.ofName? (← Receiver.ofType? target) name).resultType target

def indexedType? (target : ValueType) : Option ValueType :=
  match target.underlying with
  | .array element => some element
  | .map _ value => some value
  | .string => some .string
  | .json => some .json
  | _ => none

/-- The type of the expression under the bindings. Arithmetic has the type of its left operand
where that is known. -/
def type? (bindings : Bindings) : Expr → Option ValueType
  | column _ _ type => some type
  | parameter _ type => some type
  | convert _ type => some type
  | constant value => value.type?
  | var name => (bindings.lookup name).join
  | lambda _ _ => none
  | foreign _ => none
  | binary op left right =>
    if op.isComparison || op.isLogical then some .bool
    else (left.type? bindings).or (right.type? bindings)
  | not _ => some .bool
  | negate operand => operand.type? bindings
  | member target name => do memberType? (← target.type? bindings) name
  | call target method _ => do
    let t ← target.type? bindings
    (← Method.ofName? (← Receiver.ofType? t) method).resultType? t
  | function cls name arguments => do
    let m ← Method.ofName? (← Receiver.ofClass? cls) name
    if m = .stringIsNullOrEmpty then some .bool
    else match arguments with
      | [] => none
      | first :: _ => first.type? bindings
  | index target _ => do indexedType? (← target.type? bindings)
  | jsonPath _ _ => some .json
  | conditional _ whenTrue whenFalse => (whenTrue.type? bindings).or (whenFalse.type? bindings)
  | coalesce left right =>
    ((left.type? bindings).map ValueType.underlying).or (right.type? bindings)

end Expr

end ColumnStore
