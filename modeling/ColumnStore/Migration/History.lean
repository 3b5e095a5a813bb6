-- The table that keeps which migrations were applied: its scripts, and what a
-- session with the store does through them. The store keeps single inserted
-- blocks whole and nothing beyond, so every request for a transaction is refused.
import ColumnStore.Environment
import ColumnStore.Fault
import ColumnStore.Table.Clause

namespace ColumnStore

/-! ## Transactions -/

inductive IsolationLevel where
  | readUncommitted
  | readCommitted
  | repeatableRead
  | serializable
  | snapshot
  deriving DecidableEq, Repr

def IsolationLevel.sql : IsolationLevel → String
  | readUncommitted => "READ UNCOMMITTED"
  | readCommitted => "READ COMMITTED"
  | repeatableRead => "REPEATABLE READ"
  | serializable => "SERIALIZABLE"
  | snapshot => "SNAPSHOT"

/-- The level of a transaction that names none. -/
def IsolationLevel.standard : IsolationLevel := .readCommitted

/-- A request for several statements as one. -/
inductive TransactionRequest where
  | begin (level : Option IsolationLevel)
  | savepoint (name : String)
  deriving DecidableEq, Repr

def TransactionRequest.text : TransactionRequest → String
  | begin none => "BEGIN TRANSACTION"
  | begin (some level) => "BEGIN TRANSACTION ISOLATION LEVEL " ++ level.sql
  | savepoint name => "SAVEPOINT " ++ name

/-- Every request is refused, whatever it asks for. -/
def TransactionRequest.refusal (r : TransactionRequest) : Fault :=
  .unsupported { kind := .transaction, object := some r.text }

/-! ## The history table -/

/-- An applied migration. -/
structure HistoryRow where
  id : String
  version : String
  deriving DecidableEq, Repr

/-- A store as a session sees it: what it answers, and its state afterwards. -/
structure Executor (σ : Type) where
  execute : String → σ → Outcome Unit × σ
  query : String → σ → Outcome (List (List String)) × σ

/-- A run against a store in a state; a failure keeps the state that it left. -/
abbrev Session (σ : Type) := ExceptT Fault (StateM σ)

namespace History

def idColumn : String := "migration_id"

def versionColumn : String := "product_version"

/-! ## Scripts -/

def object (p : Provider) : ObjectName := ⟨p.database, p.historyTable⟩

/-- The history table, with replicas where there is a cluster. -/
def entity (p : Provider) : Entity where
  table := p.historyTable
  schema := p.database
  columns := [{ name := idColumn, type := .string }, { name := versionColumn, type := .string }]
  orderBy := [idColumn]
  replication := p.cluster.map fun _ => ⟨p.replicationPath, p.replicaName⟩

def createScript (p : Provider) : Outcome String := do
  (entity p).validate
  return p.terminate ((← (entity p).createTable p.types).render p.cluster)

/-- A query that has a row when the table exists. -/
def existsQuery (p : Provider) : String :=
  let database := match p.database with
    | some d => Text.literal d
    | none => "currentDatabase()"
  p.terminate ("SELECT 1 FROM system.tables WHERE database = " ++ database ++ " AND name = " ++
    Text.literal p.historyTable)

/-- The rows of the table, by id. -/
def appliedQuery (p : Provider) : String :=
  p.terminate ("SELECT " ++ Text.quoteName idColumn ++ ", " ++ Text.quoteName versionColumn ++
    " FROM " ++ (object p).quoted ++ " ORDER BY " ++ Text.quoteName idColumn)

def insertScript (p : Provider) (row : HistoryRow) : String :=
  p.terminate ("INSERT INTO " ++ (object p).quoted ++ " (" ++
    Text.nameList [idColumn, versionColumn] ++ ") VALUES (" ++ Text.literal row.id ++ ", " ++
    Text.literal row.version ++ ")")

def deleteScript (p : Provider) (id : String) : String :=
  let s : Statement :=
    ⟨"DELETE FROM", object p, " WHERE " ++ Text.quoteName idColumn ++ " = " ++ Text.literal id⟩
  p.terminate (s.render p.cluster)

/-! ## Refusals -/

/-- The store has no conditions around statements, so none around a script either. -/
def blockRefusal (p : Provider) (id : String) : Fault :=
  .unsupported {
    kind := .transaction
    table := p.historyTable
    object := "idempotent script block for " ++ id
    workaround := "Generate plain scripts; every DDL statement already uses IF [NOT] EXISTS" }

/-- The store has no locks on tables. -/
def lockRefusal (p : Provider) : Fault :=
  .unsupported {
    kind := .transaction
    table := p.historyTable
    object := "migration lock"
    workaround := "Run migrations from a single process, e.g. a deployment job" }

/-! ## Sessions -/

variable {σ : Type}

def execute (x : Executor σ) (sql : String) : Session σ Unit := ExceptT.mk (x.execute sql)

def query (x : Executor σ) (sql : String) : Session σ (List (List String)) :=
  ExceptT.mk (x.query sql)

def tableExists (p : Provider) (x : Executor σ) : Session σ Bool := do
  return !(← query x (existsQuery p)).isEmpty

/-- Creates the table if it is not there, and says whether it did. -/
def ensureCreated (p : Provider) (x : Executor σ) : Session σ Bool := do
  if ← tableExists p x then return false
  execute x (← liftExcept (createScript p))
  return true
where
  liftExcept (r : Outcome String) : Session σ String := ExceptT.mk (pure r)

def rowOf (row : List String) : Outcome HistoryRow :=
  match row with
  | id :: version :: _ => .ok ⟨id, version⟩
  | row => .error (.execution
      ("history row has " ++ toString row.length ++ " column(s), expected 2"))

/-- The applied migrations by id; none where there is no table. -/
def applied (p : Provider) (x : Executor σ) : Session σ (List HistoryRow) := do
  if ← tableExists p x then
    let rows ← query x (appliedQuery p)
    ExceptT.mk (pure (rows.mapM rowOf))
  else return []

def record (p : Provider) (x : Executor σ) (row : HistoryRow) : Session σ Unit :=
  execute x (insertScript p row)

end History

end ColumnStore
