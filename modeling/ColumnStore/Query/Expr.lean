-- Query expressions as an application writes them, before the store's syntax
-- and its one-based indices.
import ColumnStore.Query.JsonPath
import ColumnStore.Value.Arithmetic

namespace ColumnStore

inductive Operator where
  | add
  | sub
  | mul
  | div
  | mod
  | eq
  | ne
  | lt
  | le
  | gt
  | ge
  | and
  | or
  deriving DecidableEq, Repr

namespace Operator

def symbol : Operator → String
  | add => "+"
  | sub => "-"
  | mul => "*"
  | div => "/"
  | mod => "%"
  | eq => "="
  | ne => "!="
  | lt => "<"
  | le => "<="
  | gt => ">"
  | ge => ">="
  | and => "AND"
  | or => "OR"

def isComparison : Operator → Bool
  | eq | ne | lt | le | gt | ge => true
  | _ => false

def isLogical : Operator → Bool
  | and | or => true
  | _ => false

/-- The operation on constants, where there is one. -/
def arithmetic? : Operator → Option Arithmetic
  | add => some .add
  | sub => some .sub
  | mul => some .mul
  | div => some .div
  | _ => none

end Operator

inductive Expr where
  | column (table : Option String) (name : String) (type : ValueType)
  | constant (value : Value)
  /-- A value bound when the query runs. -/
  | parameter (name : String) (type : ValueType)
  /-- A name bound by an enclosing lambda. -/
  | var (name : String)
  | lambda (parameters : List String) (body : Expr)
  | binary (op : Operator) (left right : Expr)
  | not (operand : Expr)
  | negate (operand : Expr)
  | member (target : Expr) (name : String)
  | call (target : Expr) (method : String) (arguments : List Expr)
  /-- A function of a class, such as `Math.Abs(x)`. -/
  | function (cls name : String) (arguments : List Expr)
  | index (target index : Expr)
  | jsonPath (target : Expr) (path : List JsonSegment)
  | conditional (test whenTrue whenFalse : Expr)
  | coalesce (left right : Expr)
  | convert (operand : Expr) (type : ValueType)
  /-- A construct of the application that the store has nothing for. -/
  | foreign (description : String)

namespace Expr

def isNullConstant : Expr → Bool
  | constant .null => true
  | _ => false

/-- What messages call the expression. -/
def describe : Expr → String
  | column _ name _ => "column " ++ name
  | constant v => "constant " ++ v.literal
  | parameter name _ => "parameter " ++ name
  | var name => "lambda parameter " ++ name
  | lambda _ _ => "lambda"
  | binary op _ _ => "binary " ++ op.symbol
  | not _ => "unary Not"
  | negate _ => "unary Negate"
  | member _ name => "member " ++ name
  | call _ method _ => "method " ++ method ++ "()"
  | function cls name _ => "function " ++ cls ++ "." ++ name ++ "()"
  | index _ _ => "indexer"
  | jsonPath _ _ => "JSON path"
  | conditional _ _ _ => "conditional"
  | coalesce _ _ => "coalesce"
  | convert _ type => "conversion to " ++ type.display
  | foreign description => description

/-- The value of an expression built from constants, negation and arithmetic alone. -/
def fold? : Expr → Option Value
  | constant v => some v
  | negate operand => do (← operand.fold?).negate?
  | binary op left right => do
    let l ← left.fold?
    let r ← right.fold?
    (← op.arithmetic?).onValues? l r
  | _ => none

end Expr

end ColumnStore
