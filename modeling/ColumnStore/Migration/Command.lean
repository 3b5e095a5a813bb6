-- The commands that a migration's operations stand for, and their text. What
-- the store cannot do is refused; one refusal refuses the whole migration.
import ColumnStore.Migration.Order
import ColumnStore.Table.Clause
import ColumnStore.Text.Search
import ColumnStore.Value.Basic

namespace ColumnStore

inductive Command where
  /-- A statement that every node of the cluster runs. -/
  | statement (s : Statement)
  | rename (old new : ObjectName)
  | insert (object : ObjectName) (columns : List String) (rows : List (List Value))
  | raw (text : String)
  /-- A note in the place of a dictionary that is created with its credentials later. -/
  | externalDictionary (object : ObjectName)

namespace Command

def rowText (row : List Value) : String := "(" ++ ", ".intercalate (Value.literals row) ++ ")"

/-- SQL as it was given, without the blanks around it; its own terminator is not repeated. -/
def rawText (p : Provider) (text : String) : String :=
  let trimmed := Text.trimmed text
  if !p.terminator.isEmpty && Text.ends p.terminator.toList trimmed.toList then trimmed
  else p.terminate trimmed

/-- The command with its terminator. -/
def render (p : Provider) : Command → String
  | statement s => p.terminate (s.render p.cluster)
  | rename old new =>
    p.terminate ("RENAME TABLE " ++ old.quoted ++ " TO " ++ new.quoted ++ onCluster p.cluster)
  | insert object columns rows =>
    p.terminate ("INSERT INTO " ++ object.quoted ++ " (" ++ Text.nameList columns ++ ") VALUES\n" ++
      ",\n".intercalate (rows.map rowText))
  | raw text => rawText p text
  | externalDictionary object =>
    p.terminate ("-- Dictionary " ++ object.quoted ++ " uses an external source; it is created " ++
      "at application startup so credentials never appear in migrations")

end Command

namespace Operation

open Command

/-! ## Refusals -/

/-- Whether an annotation of a column asks for numbers that the store would have to hand out. -/
def asksForIdentity (name value : String) : Bool :=
  let named (s : String) : Bool :=
    Text.mentions "identity" s || Text.mentions "autoincrement" s ||
      Text.mentions "auto_increment" s || Text.mentions "serial" s
  named name || (Text.mentions "valuegeneration" name && named value)

def refuseIdentity (table : String) (c : Column) (annotations : SortedMap String) : Outcome Unit :=
  match annotations.entries.find? fun (name, value) => asksForIdentity name value with
  | none => .ok ()
  | some (name, value) => .error (.unsupported
      { kind := .identity, table, column := c.name, object := name ++ " = " ++ value })

/-! ## Tables -/

def alter (object : ObjectName) (action : String) : Command :=
  .statement ⟨"ALTER TABLE", object, " " ++ action⟩

/-- A column added or changed, by the definition behind `action`. -/
def alterColumn (p : Provider) (object : ObjectName) (c : Column) (annotations : SortedMap String)
    (action : String) : Outcome (List Command) := do
  refuseIdentity object.name c annotations
  return [alter object (action ++ " " ++ (← c.definition p.types))]

def addProjection (object : ObjectName) (name query : String) (ifNotExists : Bool) : Command :=
  alter object ("ADD PROJECTION " ++ (if ifNotExists then "IF NOT EXISTS " else "") ++
    Text.quoteName name ++ " (" ++ Text.trimmed query ++ ")")

/-- The entity that is created: the model's, or a bare one where the operation has columns. The
operation's schema and columns stand in place of the entity's. -/
def entityFor (m : Model) (object : ObjectName) (columns : List Column) : Outcome Entity := do
  let entity ← match m.entity? object.name with
    | some e => pure e
    | none =>
      if columns.isEmpty then
        throw (.invalid ("entity " ++ object.name) "not registered"
          "a model entity or explicit columns on the CreateTable operation")
      let bare : Entity := { table := object.name }
      bare.validate
      pure bare
  return { entity with
    schema := object.schema.or entity.schema
    columns := if columns.isEmpty then entity.columns else columns }

def create (p : Provider) (m : Model) (object : ObjectName) (columns : List Column) :
    Outcome (List Command) := do
  let e ← entityFor m object columns
  match e.kind with
  | .tableFunction _ => return []
  | .view v => return [.statement (e.createView v)]
  | .dictionary d =>
    if d.source.isExternal then return [.externalDictionary e.object]
    d.validate object.name
    return [.statement (← d.createFromStore e.object p.types)]
  | .table =>
    let table ← e.createTable p.types
    return .statement table ::
      e.projections.map fun q => addProjection e.object q.name q.query true

/-- Drops the object by what the model knows it to be. -/
def drop (m : Model) (object : ObjectName) : List Command :=
  let entity := m.entity? object.name
  let object : ObjectName := { object with schema := object.schema.or (entity.bind (·.schema)) }
  let keyword := match entity.map Entity.kind with
    | some (.tableFunction _) => none
    | some (.view _) => some "VIEW"
    | some (.dictionary _) => some "DICTIONARY"
    | _ => some "TABLE"
  (keyword.map fun k => .statement ⟨"DROP " ++ k ++ " IF EXISTS", object, ""⟩).toList

/-! ## Indices and rows -/

/-- An index of the operation's kind and columns, else of those that the entity declares. -/
def createIndex (m : Model) (object : ObjectName) (name : String) (columns : List String)
    (skip : Option SkipIndex) : Outcome (List Command) :=
  let declared := (m.entity? object.name).bind (·.index? name)
  let skip := (skip.or (declared.map (·.skip))).getD {}
  let columns := if columns.isEmpty then (declared.map (·.columns)).getD [] else columns
  if columns.isEmpty then
    .error (.invalid ("index " ++ name ++ " on " ++ object.name) "no columns" "at least one column")
  else .ok [alter object ("ADD INDEX IF NOT EXISTS " ++ Text.quoteName name ++ " (" ++
    Text.nameList columns ++ ") " ++ skip.render)]

/-- Refuses a row with a value too many or too few, or with one that its column does not take. -/
def checkRow (m : Model) (table : String) (columns : List String) (row : List Value) :
    Outcome Unit :=
  if row.length ≠ columns.length then
    .error (.invalid ("insert into " ++ table) (toString row.length ++ " values")
      (toString columns.length ++ " values, one per column"))
  else
    (columns.zip row).forM fun (name, value) =>
      match m.column? table name with
      | some c => value.validate c.type c.options
      | none => .ok ()

def insertRows (m : Model) (object : ObjectName) (columns : List String)
    (rows : List (List Value)) : Outcome (List Command) := do
  rows.forM (checkRow m object.name columns)
  return if rows.isEmpty then [] else [.insert object columns rows]

/-! ## All operations -/

def refuse (request : Unsupported) : Outcome (List Command) := .error (.unsupported request)

def tableCommands (p : Provider) (m : Model) (object : ObjectName) :
    TableChange → Outcome (List Command)
  | .create columns => create p m object columns
  | .drop => .ok (drop m object)
  | .rename name schema => .ok [.rename object ⟨schema.or object.schema, name⟩]
  | .addColumn c annotations => alterColumn p object c annotations "ADD COLUMN IF NOT EXISTS"
  | .alterColumn c annotations => alterColumn p object c annotations "MODIFY COLUMN"
  | .dropColumn name => .ok [alter object ("DROP COLUMN IF EXISTS " ++ Text.quoteName name)]
  | .renameColumn name _ =>
    refuse { kind := .columnRename, table := object.name, column := name }
  | .addPrimaryKey name _ => refuse { kind := .primaryKey, table := object.name, object := name }
  | .dropPrimaryKey name => refuse { kind := .primaryKey, table := object.name, object := name }
  | .addForeignKey name _ _ _ =>
    refuse { kind := .foreignKey, table := object.name, object := name }
  | .dropForeignKey name => refuse { kind := .foreignKey, table := object.name, object := name }
  | .createIndex name columns unique skip =>
    if unique then refuse { kind := .uniqueConstraint, table := object.name, object := name }
    else createIndex m object name columns skip
  | .dropIndex name => .ok [alter object ("DROP INDEX IF EXISTS " ++ Text.quoteName name)]
  | .addProjection name query ifNotExists => .ok [addProjection object name query ifNotExists]
  | .dropProjection name ifExists =>
    .ok [alter object ("DROP PROJECTION " ++ (if ifExists then "IF EXISTS " else "") ++
      Text.quoteName name)]
  | .materializeProjection name part ifExists =>
    .ok [alter object ("MATERIALIZE PROJECTION " ++ (if ifExists then "IF EXISTS " else "") ++
      Text.quoteName name ++ (part.map (" IN PARTITION " ++ ·)).getD "")]
  | .insertData columns rows => insertRows m object columns rows
  | .updateData => refuse { kind := .update, table := object.name, object := "UPDATE" }
  | .deleteData => refuse {
      kind := .update
      table := object.name
      object := "DELETE"
      workaround := "Use a ReplacingMergeTree is_deleted column, a TTL rule, or an explicit " ++
        "ALTER TABLE ... DELETE mutation" }

/-- The commands of one operation. -/
def commands (p : Provider) (m : Model) : Operation → Outcome (List Command)
  | ensureSchema name => .ok [.statement ⟨"CREATE DATABASE IF NOT EXISTS", ⟨none, name⟩, ""⟩]
  | dropSchema name => .ok [.statement ⟨"DROP DATABASE IF EXISTS", ⟨none, name⟩, ""⟩]
  | onTable object change => tableCommands p m object change
  | sql text => .ok [.raw text]

/-- The commands of one operation as text. -/
def statements (p : Provider) (m : Model) (o : Operation) : Outcome (List String) := do
  return (← o.commands p m).map (Command.render p)

/-- The text of a whole migration, its operations in the order in which they run. -/
def migrate (p : Provider) (m : Model) (operations : List Operation) : Outcome (List String) := do
  let sorted ← sort m p.cyclePolicy operations
  return (← sorted.mapM (statements p m)).flatten

end Operation

end ColumnStore
