-- The statements that create tables and views, and the clauses behind the
-- columns in the one order that the store takes: engine, partitions, sorting
-- key, primary key, sampling, lifetime of rows, settings.
import ColumnStore.Number.FloatText
import ColumnStore.Table.Entity

namespace ColumnStore

inductive Clause where
  | engine (expression : String)
  | partitionBy (expression : String)
  | orderBy (columns : List String)
  | primaryKey (columns : List String)
  | sampleBy (expression : String)
  | ttl (expression : String)
  | settings (entries : List (String × String))
  deriving DecidableEq, Repr

/-- A setting's value: numbers and truth values as they are, anything else as a literal. Single
quotes around the value are taken for its own. -/
def settingValue (value : String) : String :=
  let trimmed := Text.trimmed value
  if (Number.readFloat? trimmed.toList).isSome || trimmed = "true" || trimmed = "false" then trimmed
  else
    match trimmed.toList with
    | '\'' :: cs =>
      if cs.getLast? = some '\'' then Text.literal (.ofList cs.dropLast) else Text.literal trimmed
    | _ => Text.literal trimmed

def Clause.render : Clause → String
  | engine e => "ENGINE = " ++ e
  | partitionBy e => "PARTITION BY " ++ e
  | orderBy [] => "ORDER BY tuple()"
  | orderBy columns => "ORDER BY (" ++ Text.nameList columns ++ ")"
  | primaryKey columns => "PRIMARY KEY (" ++ Text.nameList columns ++ ")"
  | sampleBy e => "SAMPLE BY " ++ e
  | ttl e => "TTL " ++ e
  | settings entries =>
    "SETTINGS " ++ ", ".intercalate (entries.map fun (k, v) => k ++ " = " ++ settingValue v)

namespace Entity

/-- The engine with its arguments, the replicas' meeting place in front of them. -/
def engineExpression (e : Entity) : String :=
  if e.engine.isMergeTree then
    match e.replication with
    | none => e.engine.name ++ "(" ++ ", ".intercalate e.engine.arguments ++ ")"
    | some r =>
      let arguments := [Text.literal r.path, Text.literal r.replica] ++ e.engine.arguments
      "Replicated" ++ e.engine.name ++ "(" ++ ", ".intercalate arguments ++ ")"
  else e.engine.name

/-- The primary key is written only where it is not the whole sorting key. -/
def clauses (e : Entity) : List Clause :=
  [.engine e.engineExpression] ++
  (if e.engine.isMergeTree then
    (e.partitionBy.map .partitionBy).toList ++ [.orderBy e.sortingKey] ++
    (if e.primaryKey.isEmpty || e.primaryKey = e.sortingKey then []
      else [.primaryKey e.primaryKey]) ++
    (e.sampleBy.map .sampleBy).toList ++ (e.ttl.map .ttl).toList
  else []) ++
  (if e.settings.entries.isEmpty then [] else [.settings e.settings.entries])

/-- The clauses, one a line. -/
def clauseText (e : Entity) : String := "\n".intercalate (e.clauses.map Clause.render)

end Entity

/-! ## The statements that create tables and views -/

/-- An index as it stands among the columns of a table. -/
def TableIndex.definition (i : TableIndex) : String :=
  "INDEX " ++ Text.quoteName i.name ++ " (" ++ Text.nameList i.columns ++ ") " ++ i.skip.render

namespace Entity

/-- The statement that creates the table; it needs a column or an index. -/
def createTable (e : Entity) (d : TypeDefaults) : Outcome Statement := do
  let columns ← e.columns.mapM (·.definition d)
  let body := columns ++ e.indexes.map TableIndex.definition
  if body.isEmpty then
    throw (.invalid ("columns on " ++ e.table) "none" "at least one column")
  return ⟨"CREATE TABLE IF NOT EXISTS", e.object,
    "\n(\n    " ++ ",\n    ".intercalate body ++ "\n)\n" ++ e.clauseText⟩

/-- The statement that creates the view, over a table of its own or into another one. -/
def createView (e : Entity) (v : MaterializedView) : Statement :=
  let into := match v.targetTable with
    | some target => "TO " ++ Text.qualifiedName e.schema target
    | none => e.clauseText ++ (if v.populate then "\nPOPULATE" else "")
  ⟨"CREATE MATERIALIZED VIEW IF NOT EXISTS", e.object,
    "\n" ++ into ++ "\nAS " ++ Text.trimmed v.query⟩

end Entity

end ColumnStore
