-- Entities: what an application keeps in one object of the store, with its
-- engine, its columns and its layout. Of a column only the first of a
-- materialized expression, an alias and a default is used; the default for nulls
-- stands in for a missing one. A declaration is validated as a whole before it
-- is used. The entities of one application are a model, by table name: no name
-- stands twice, not even in two schemas.
import ColumnStore.SortedMap
import ColumnStore.Table.Dictionary
import ColumnStore.Table.Engine
import ColumnStore.Table.SkipIndex
import ColumnStore.Types.ColumnType

namespace ColumnStore

/-! ## Columns -/

structure Column where
  name : String
  type : ValueType
  options : TypeOptions := {}
  materialized : Option String := none
  aliased : Option String := none
  default : Option String := none
  codec : Option String := none
  comment : Option String := none

/-- Where a column's values come from when a row does not give them. -/
inductive Fill where
  | materialized (expression : String)
  | aliased (expression : String)
  | default (expression : String)
  deriving DecidableEq, Repr

def Fill.render : Fill → String
  | materialized e => " MATERIALIZED " ++ e
  | aliased e => " ALIAS " ++ e
  | default e => " DEFAULT " ++ e

/-- A column with its column type settled. -/
structure ColumnDefinition where
  name : String
  type : ColumnType
  fill : Option Fill
  codec : Option String
  comment : Option String

def ColumnDefinition.render (c : ColumnDefinition) : String :=
  Text.quoteName c.name ++ " " ++ c.type.render ++
    (c.fill.map Fill.render).getD "" ++
    (c.codec.map fun codec => " CODEC(" ++ codec ++ ")").getD "" ++
    (c.comment.map fun comment => " COMMENT " ++ Text.literal comment).getD ""

namespace Column

def fill? (c : Column) : Option Fill :=
  match c.materialized, c.aliased, c.default with
  | some e, _, _ => some (.materialized e)
  | none, some e, _ => some (.aliased e)
  | none, none, some e => some (.default e)
  | none, none, none => if c.type.isNullable then c.options.defaultForNull.map .default else none

def define (c : Column) (d : TypeDefaults) : Outcome ColumnDefinition := do
  return ⟨c.name, ← d.columnType c.options c.type, c.fill?, c.codec, c.comment⟩

/-- The text of the column's definition. -/
def definition (c : Column) (d : TypeDefaults) : Outcome String := do
  return (← c.define d).render

end Column

/-! ## Objects -/

/-- Where the replicas of a table meet. -/
structure Replication where
  path : String
  replica : String
  deriving DecidableEq, Repr

/-- A skip index on some columns of a table. -/
structure TableIndex where
  name : String
  columns : List String
  skip : SkipIndex

structure Projection where
  name : String
  query : String
  deriving DecidableEq, Repr

/-- A query whose results are kept up to date as rows arrive. -/
structure MaterializedView where
  sourceTable : String
  sourceSchema : Option String := none
  query : String
  populate : Bool := false
  /-- A table that takes the rows in place of one of the view's own. -/
  targetTable : Option String := none
  deriving DecidableEq, Repr

inductive EntityKind where
  | table
  | view (v : MaterializedView)
  | dictionary (d : Dictionary)
  /-- A call such as `s3(...)` that stands for a table and is never created. -/
  | tableFunction (call : String)

structure Entity where
  table : String
  schema : Option String := none
  engine : Engine := .mergeTree
  replication : Option Replication := none
  orderBy : List String := []
  partitionBy : Option String := none
  primaryKey : List String := []
  sampleBy : Option String := none
  ttl : Option String := none
  settings : SortedMap String := .empty
  columns : List Column := []
  indexes : List TableIndex := []
  projections : List Projection := []
  kind : EntityKind := .table

namespace Entity

def object (e : Entity) : ObjectName := ⟨e.schema, e.table⟩

/-- The columns that rows are sorted by: the declared ones, else the primary key. -/
def sortingKey (e : Entity) : List String :=
  if e.orderBy.isEmpty then e.primaryKey else e.orderBy

def column? (e : Entity) (name : String) : Option Column := e.columns.find? (·.name = name)

def index? (e : Entity) (name : String) : Option TableIndex := e.indexes.find? (·.name = name)

def isView (e : Entity) : Bool := match e.kind with | .view _ => true | _ => false

def isDictionary (e : Entity) : Bool := match e.kind with | .dictionary _ => true | _ => false

def isTableFunction (e : Entity) : Bool := match e.kind with | .tableFunction _ => true | _ => false

/-! ## Validation -/

/-- The clauses that only engines of the MergeTree family take, where they are declared. -/
def sortedClauses (e : Entity) : List String :=
  (if e.orderBy.isEmpty then [] else ["ORDER BY"]) ++
  (if e.partitionBy.isSome then ["PARTITION BY"] else []) ++
  (if e.primaryKey.isEmpty then [] else ["PRIMARY KEY"]) ++
  (if e.sampleBy.isSome then ["SAMPLE BY"] else []) ++
  (if e.ttl.isSome then ["TTL"] else []) ++
  (if e.replication.isSome then ["replication"] else [])

/-- The first name that stands in the list a second time. -/
def firstRepeated (seen : List String) : List String → Option String
  | [] => none
  | n :: ns => if seen.contains n then some n else firstRepeated (n :: seen) ns

def validateKeys (e : Entity) : Outcome Unit := do
  if !e.engine.isMergeTree then
    if let some clause := e.sortedClauses.head? then
      throw (.invalid (clause ++ " on " ++ e.table) e.engine.name "a MergeTree-family engine")
  if !e.orderBy.isEmpty && !e.primaryKey.isEmpty && !e.primaryKey.isPrefixOf e.orderBy then
    throw (.invalid ("PRIMARY KEY on " ++ e.table) (", ".intercalate e.primaryKey)
      ("a prefix of ORDER BY (" ++ ", ".intercalate e.orderBy ++ ")"))
  if let some sample := e.sampleBy then
    if e.sortingKey.isEmpty then
      throw (.invalid ("SAMPLE BY on " ++ e.table) sample
        "an ORDER BY or PRIMARY KEY containing the sampling expression")

def validateNames (e : Entity) : Outcome Unit := do
  if let some key := (e.settings.entries.map (·.1)).find? (!Text.isPlainName ·) then
    throw (.invalid ("SETTINGS on " ++ e.table) key
      "a setting name made of letters, digits and underscores")
  if let some name := firstRepeated [] (e.columns.map (·.name)) then
    throw (.invalid ("columns on " ++ e.table) name "unique column names")

def validateKind (e : Entity) : Outcome Unit :=
  match e.kind with
  | .table => .ok ()
  | .dictionary d => d.validate e.table
  | .view v => do
    if Text.isBlankText v.query then
      throw (.invalid ("materialized view query on " ++ e.table) "''" "a SELECT statement")
    if v.populate && v.targetTable.isSome then
      throw (.invalid ("materialized view POPULATE on " ++ e.table) "true"
        "POPULATE only for views without a TO table")
  | .tableFunction call =>
    if Text.isBlankText call then
      .error (.invalid ("table function on " ++ e.table) "''" "a table function call")
    else .ok ()

/-- Refuses a declaration whose parts do not fit together. -/
def validate (e : Entity) : Outcome Unit := do
  if Text.isBlankText e.table then
    throw (.invalid "entity table name" "''" "a non-empty name")
  e.engine.validate e.table
  e.validateKeys
  e.validateNames
  e.validateKind

end Entity

/-! ## Models -/

structure Model where
  /-- In the order in which they were declared. -/
  entities : List Entity := []
  unique : (entities.map (·.table)).Nodup := by simp

namespace Model

def entity? (m : Model) (table : String) : Option Entity := m.entities.find? (·.table = table)

def column? (m : Model) (table column : String) : Option Column := do
  (← m.entity? table).column? column

def schemaName (e : Entity) : String := e.schema.getD "<default>"

/-- The model with one more entity behind the others, if its name is new and a view of it has
a source. -/
def add (m : Model) (e : Entity) : Outcome Model :=
  match h : m.entity? e.table with
  | some known => .error (.invalid ("model entity " ++ e.table)
      ("schemas " ++ schemaName known ++ " and " ++ schemaName e)
      "each table name registered once across all schemas")
  | none =>
    let added : Model :=
      { entities := m.entities ++ [e]
        unique := by
          have hn : ∀ x ∈ m.entities, x.table ≠ e.table := by
            simpa [entity?, List.find?_eq_none] using h
          rw [List.map_append, List.nodup_append]
          refine ⟨m.unique, by simp, ?_⟩
          intro a ha b hb
          obtain ⟨x, hx, rfl⟩ := List.mem_map.mp ha
          simp only [List.map_cons, List.map_nil, List.mem_singleton] at hb
          exact hb ▸ hn x hx }
    match e.kind with
    | .view v =>
      if Text.isBlankText v.sourceTable then
        .error (.invalid ("materialized view " ++ e.table ++ " source") "''" "a source table name")
      else .ok added
    | _ => .ok added

/-- The model of the entities, in order. -/
def ofEntities (entities : List Entity) : Outcome Model := entities.foldlM add {}

end Model

end ColumnStore
