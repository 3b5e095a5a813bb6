-- SQL expressions as trees, and their text. Names and literals are quoted
-- already; the text adds structure and parentheses alone.

namespace ColumnStore

inductive Sql where
  /-- A quoted name, perhaps behind its table. -/
  | identifier (text : String)
  /-- A literal or a placeholder. -/
  | raw (text : String)
  /-- A parameter of an enclosing lambda. -/
  | var (name : String)
  | function (name : String) (arguments : List Sql)
  | binary (left : Sql) (op : String) (right : Sql)
  | not (operand : Sql)
  | negate (operand : Sql)
  | isNull (operand : Sql) (negated : Bool)
  | subcolumn (base : Sql) (key : String)
  | subscript (target index : Sql)
  | lambda (parameters : List String) (body : Sql)
  | cast (operand : Sql) (typeName : String)
  deriving Inhabited

namespace Sql

/-- Whether the expression is in parentheses where it is an operand. -/
def needsParens : Sql → Bool
  | binary .. | not _ | isNull .. | lambda .. => true
  | _ => false

def parenthesised (parens : Bool) (text : String) : String :=
  if parens then "(" ++ text ++ ")" else text

mutual

def render : Sql → String
  | identifier text => text
  | raw text => text
  | var name => name
  | function name arguments => name ++ "(" ++ ", ".intercalate (renderAll arguments) ++ ")"
  | binary left op right =>
    parenthesised left.needsParens left.render ++ " " ++ op ++ " " ++
      parenthesised right.needsParens right.render
  | not operand => "NOT " ++ parenthesised operand.needsParens operand.render
  | negate operand => "-" ++ parenthesised operand.needsParens operand.render
  | isNull operand negated =>
    parenthesised operand.needsParens operand.render ++
      (if negated then " IS NOT NULL" else " IS NULL")
  | subcolumn base key => parenthesised base.needsParens base.render ++ "." ++ key
  | subscript target index =>
    parenthesised target.needsParens target.render ++ "[" ++ index.render ++ "]"
  | lambda parameters body =>
    match parameters with
    | [p] => p ++ " -> " ++ body.render
    | ps => "(" ++ ", ".intercalate ps ++ ") -> " ++ body.render
  | cast operand typeName => "CAST(" ++ operand.render ++ " AS " ++ typeName ++ ")"

def renderAll : List Sql → List String
  | [] => []
  | s :: ss => s.render :: renderAll ss

end

end Sql

end ColumnStore
