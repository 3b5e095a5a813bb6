-- A query on one table. What stands inside its modifiers (FINAL, SAMPLE,
-- SETTINGS) is written into the text, so it has to fold to constants, and it
-- is checked before any expression is lowered.
import ColumnStore.Query.Lowering
import ColumnStore.SortedMap
import ColumnStore.Table.Entity

namespace ColumnStore

structure Select where
  table : String
  schema : Option String := none
  /-- Expressions with the names that they are given. -/
  projections : List (Expr × Option String) := []
  filters : List Expr := []
  groupBy : List Expr := []
  having : Option Expr := none
  /-- Expressions, and whether the greatest comes first. -/
  orderBy : List (Expr × Bool) := []
  limit : Option Expr := none
  offset : Option Expr := none
  final : Bool := false
  sample : Option Expr := none
  settings : List (String × Expr) := []

/-- What a query is prepared with. -/
structure QueryContext where
  types : TypeDefaults := {}
  model : Option Model := none

/-- Conditions that have to hold together, joined from the left. -/
def Expr.conjunction : List Expr → Option Expr
  | [] => none
  | e :: es => some (es.foldl (.binary .and) e)

namespace Select

/-! ## Building a query -/

/-- A second condition on groups has to hold together with the first. -/
def addHaving (q : Select) (condition : Expr) : Select :=
  { q with having := Expr.conjunction (q.having.toList ++ [condition]) }

/-- A setting named twice has its last value, in its first place. -/
def addSetting (q : Select) (name : String) (value : Expr) : Select :=
  { q with settings := assign name value q.settings }

/-! ## Modifiers -/

def refuse {α : Type} (construct : String) (cause : QueryCause) : Outcome α :=
  .error (.inexpressible construct cause)

/-- Why an entity's rows have no latest version. -/
def finalObstacle? (e : Entity) : Option QueryCause :=
  if e.isDictionary then some .dictionaryVersions
  else if e.isTableFunction then some .functionVersions
  else if e.engine.supportsFinal then none
  else some (.engineVersions e.engine.name)

/-- Refuses modifiers that the table, where the model knows it, has nothing for. -/
def checkEntity (q : Select) (t : QueryContext) : Outcome Unit :=
  match t.model.bind (·.entity? q.table) with
  | none => .ok ()
  | some e => do
    if q.final then
      if let some cause := finalObstacle? e then refuse ("FINAL on " ++ q.table) cause
    if q.sample.isSome && e.sampleBy.isNone then refuse ("SAMPLE on " ++ q.table) .notSampled

/-- Whether a value is a number of rows or a fraction above zero and up to one. -/
def isSampleSize (v : Value) : Bool :=
  match v with
  | .int n => 1 ≤ n.toInt
  | .uint n => 1 ≤ n.toNat
  | .float _ | .decimal _ => v.toFloat?.any fun f => f > 0.0 && f ≤ 1.0
  | _ => false

def sampleText (e : Expr) : Outcome String :=
  let construct := "SAMPLE " ++ e.describe
  match e.fold? with
  | none => refuse construct .sampleNotConstant
  | some v => if isSampleSize v then .ok v.literal else refuse construct (.sampleRange v.literal)

def settingText (name : String) (e : Expr) : Outcome String :=
  let construct := "SETTINGS " ++ name
  if !Text.isPlainName name then refuse construct .settingName
  else match e.fold? with
    | none => refuse construct .settingNotConstant
    | some .null => refuse construct .settingNull
    | some v => .ok (name ++ " = " ++ v.literal)

/-! ## Text -/

/-- A clause on a line of its own, if it has any parts. -/
def clause (keyword : String) (parts : List String) : String :=
  if parts.isEmpty then "" else "\n" ++ keyword ++ " " ++ ", ".intercalate parts

def lowerText (d : TypeDefaults) (e : Expr) : Lowering String := do
  return (← e.lower d []).render

def projectionText (d : TypeDefaults) (p : Expr × Option String) : Lowering String := do
  let sql ← lowerText d p.1
  return match p.2 with
    | some label => sql ++ " AS " ++ Text.quoteName label
    | none => sql

def orderText (d : TypeDefaults) (o : Expr × Bool) : Lowering String := do
  let sql ← lowerText d o.1
  return if o.2 then sql ++ " DESC" else sql

/-- The query's text, its expressions lowered in the order in which they stand in it. -/
def body (q : Select) (d : TypeDefaults) (source : String) (settings : List String) :
    Lowering String := do
  let projections ← q.projections.mapM (projectionText d)
  let filter ← (Expr.conjunction q.filters).toList.mapM (lowerText d)
  let groupBy ← q.groupBy.mapM (lowerText d)
  let having ← q.having.toList.mapM (lowerText d)
  let orderBy ← q.orderBy.mapM (orderText d)
  let limit ← q.limit.toList.mapM (lowerText d)
  let offset ← q.offset.toList.mapM (lowerText d)
  let columns := if projections.isEmpty then ["*"] else projections
  return "SELECT " ++ ", ".intercalate columns ++ "\nFROM " ++ source ++
    clause "WHERE" filter ++ clause "GROUP BY" groupBy ++ clause "HAVING" having ++
    clause "ORDER BY" orderBy ++ clause "LIMIT" limit ++ clause "OFFSET" offset ++
    clause "SETTINGS" settings

/-- The query's text and its parameters. -/
def prepare (q : Select) (t : QueryContext) : Outcome PreparedQuery := do
  q.checkEntity t
  let sample ← q.sample.toList.mapM sampleText
  let settings ← q.settings.mapM fun (name, e) => settingText name e
  let source := Text.qualifiedName q.schema q.table ++ (if q.final then " FINAL" else "") ++
    String.join (sample.map (" SAMPLE " ++ ·))
  let (sql, parameters) ← (q.body t.types source settings).run []
  return ⟨sql, parameters⟩

end Select

end ColumnStore
