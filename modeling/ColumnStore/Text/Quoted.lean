-- The two quoted forms of SQL text, each with its reader. A name stands in
-- double quotes and a quote inside it is written twice. A string literal
-- stands in single quotes and escapes with backslashes, so no raw line break,
-- tab or NUL stands in it. Objects of the store have quoted names, and a
-- statement about one may name the cluster whose nodes all have to run it.

namespace ColumnStore.Text

/-! ## Names -/

/-- Each double quote written twice. -/
def doubleQuotes : List Char → List Char
  | [] => []
  | c :: cs => if c = '"' then '"' :: '"' :: doubleQuotes cs else c :: doubleQuotes cs

def escapeName (name : String) : String := .ofList (doubleQuotes name.toList)

/-- The name in double quotes. -/
def quoteName (name : String) : String := "\"" ++ escapeName name ++ "\""

/-- The quoted name behind its quoted schema. An empty schema counts as none. -/
def qualifiedName (schema : Option String) (name : String) : String :=
  match schema with
  | none => quoteName name
  | some s => if s.isEmpty then quoteName name else quoteName s ++ "." ++ quoteName name

/-- The quoted names behind one another. -/
def nameList (names : List String) : String := ", ".intercalate (names.map quoteName)

/-- Reads a name behind its opening quote, up to the first quote that stands alone. -/
def readName : List Char → Option (List Char × List Char)
  | [] => none
  | '"' :: '"' :: cs => (readName cs).map fun (n, r) => ('"' :: n, r)
  | '"' :: cs => some ([], cs)
  | c :: cs => (readName cs).map fun (n, r) => (c :: n, r)

/-! ## String literals -/

/-- How one character stands inside a string literal. -/
def escapeChar (c : Char) : List Char :=
  if c = '\\' then ['\\', '\\']
  else if c = '\'' then ['\\', '\'']
  else if c = '\n' then ['\\', 'n']
  else if c = '\r' then ['\\', 'r']
  else if c = '\t' then ['\\', 't']
  else if c = '\x00' then ['\\', '0']
  else [c]

def escapeLiteral (s : String) : String := .ofList (s.toList.flatMap escapeChar)

/-- The text as a string literal. -/
def literal (s : String) : String := "'" ++ escapeLiteral s ++ "'"

/-- The character that a backslash and `c` stand for. -/
def unescapeChar (c : Char) : Option Char :=
  if c = '\\' then some '\\'
  else if c = '\'' then some '\''
  else if c = 'n' then some '\n'
  else if c = 'r' then some '\r'
  else if c = 't' then some '\t'
  else if c = '0' then some '\x00'
  else none

/-- Reads a literal behind its opening quote, up to the closing one. -/
def readLiteral : List Char → Option (List Char × List Char)
  | [] => none
  | '\\' :: [] => none
  | '\\' :: c :: cs => do
    let u ← unescapeChar c
    let (s, r) ← readLiteral cs
    pure (u :: s, r)
  | '\'' :: cs => some ([], cs)
  | c :: cs => (readLiteral cs).map fun (s, r) => (c :: s, r)

/-! ## Names that need no quotes -/

def isNameStart (c : Char) : Bool := c.isAlpha || c = '_'

def isNameChar (c : Char) : Bool := c.isAlphanum || c = '_'

/-- A letter or underscore, then letters, digits and underscores, all of ASCII. -/
def isPlainName (name : String) : Bool :=
  match name.toList with
  | [] => false
  | c :: cs => isNameStart c && cs.all isNameChar

/-- The mark of a value bound when the query runs. -/
def placeholder (name storeType : String) : String :=
  "\x7b" ++ name ++ ":" ++ storeType ++ "\x7d"

end ColumnStore.Text

namespace ColumnStore

/-! ## Objects and statements about them -/

/-- A table, view or dictionary, perhaps in a schema. -/
structure ObjectName where
  schema : Option String
  name : String
  deriving DecidableEq, Repr

def ObjectName.quoted (o : ObjectName) : String := Text.qualifiedName o.schema o.name

/-- The clause that hands a statement to a cluster, with a blank in front. -/
def onCluster (cluster : Option String) : String :=
  match cluster with
  | some c => " ON CLUSTER " ++ Text.quoteName c
  | none => ""

/-- A statement about an object; the cluster is named behind the object. -/
structure Statement where
  verb : String
  object : ObjectName
  rest : String
  deriving DecidableEq, Repr

def Statement.render (s : Statement) (cluster : Option String) : String :=
  s.verb ++ " " ++ s.object.quoted ++ onCluster cluster ++ s.rest

end ColumnStore
