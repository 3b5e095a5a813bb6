-- Dictionaries: key and attribute columns, a source, a layout and a lifetime.
-- A source in the store itself needs no credentials; every other one is
-- written only with them, when the application starts.
import ColumnStore.Environment
import ColumnStore.Text.Quoted
import ColumnStore.Types.ColumnType
import ColumnStore.Value.Basic

namespace ColumnStore

/-- A database outside the store, by the profile of its credentials. -/
structure ExternalDatabase where
  profile : String
  database : Option String
  table : Option String
  deriving DecidableEq, Repr

inductive DictionarySource where
  | store (table : String) (database : Option String)
  | postgreSql (d : ExternalDatabase)
  | mySql (d : ExternalDatabase)
  | http (profile format : String)
  deriving DecidableEq, Repr

namespace DictionarySource

def kindName : DictionarySource → String
  | store _ _ => "CLICKHOUSE"
  | postgreSql _ => "POSTGRESQL"
  | mySql _ => "MYSQL"
  | http _ _ => "HTTP"

/-- The profile whose credentials a source outside the store needs. -/
def profile? : DictionarySource → Option String
  | store _ _ => none
  | postgreSql d => some d.profile
  | mySql d => some d.profile
  | http profile _ => some profile

def isExternal (s : DictionarySource) : Bool := s.profile?.isSome

end DictionarySource

inductive DictionaryLayout where
  | flat
  | hashed
  | sparseHashed
  | complexKeyHashed
  | complexKeySparseHashed
  | cache (cells : Nat)
  | complexKeyCache (cells : Nat)
  | direct
  | complexKeyDirect
  deriving DecidableEq, Repr

namespace DictionaryLayout

/-- Whether keys may be composite or other than whole numbers. -/
def isComplexKey : DictionaryLayout → Bool
  | complexKeyHashed | complexKeySparseHashed | complexKeyCache _ | complexKeyDirect => true
  | _ => false

/-- How many cells a layout that caches has. -/
def cells? : DictionaryLayout → Option Nat
  | cache n | complexKeyCache n => some n
  | _ => none

def body : DictionaryLayout → String
  | flat => "FLAT()"
  | hashed => "HASHED()"
  | sparseHashed => "SPARSE_HASHED()"
  | complexKeyHashed => "COMPLEX_KEY_HASHED()"
  | complexKeySparseHashed => "COMPLEX_KEY_SPARSE_HASHED()"
  | cache n => "CACHE(SIZE_IN_CELLS " ++ toString n ++ ")"
  | complexKeyCache n => "COMPLEX_KEY_CACHE(SIZE_IN_CELLS " ++ toString n ++ ")"
  | direct => "DIRECT()"
  | complexKeyDirect => "COMPLEX_KEY_DIRECT()"

def render (l : DictionaryLayout) : String := "LAYOUT(" ++ l.body ++ ")"

end DictionaryLayout

/-- The seconds between two loads; zero and zero is no loading again. -/
structure DictionaryLifetime where
  min : Nat := 300
  max : Nat := 360
  deriving DecidableEq, Repr

def DictionaryLifetime.range (l : DictionaryLifetime) : String :=
  "MIN " ++ toString l.min ++ " MAX " ++ toString l.max

def DictionaryLifetime.render (l : DictionaryLifetime) : String :=
  if l.min = 0 ∧ l.max = 0 then "LIFETIME(0)" else "LIFETIME(" ++ l.range ++ ")"

structure DictionaryColumn where
  name : String
  type : ValueType
  /-- The value for keys that are missing. -/
  default : Option Value := none
  expression : Option String := none
  hierarchical : Bool := false
  injective : Bool := false

structure Dictionary where
  keys : List DictionaryColumn
  attributes : List DictionaryColumn
  source : DictionarySource
  layout : DictionaryLayout
  lifetime : DictionaryLifetime := {}
  /-- A query that is read in place of the source's table. -/
  query : Option String := none

namespace Dictionary

/-! ## Validation -/

/-- Whether the key is one column of unsigned words. -/
def hasSimpleKey (d : Dictionary) : Bool :=
  match d.keys with
  | [key] => match key.type with | .uint64 => true | _ => false
  | _ => false

def validateSource (d : Dictionary) (setting : String → String) : Outcome Unit :=
  let external (e : ExternalDatabase) : Outcome Unit :=
    if e.profile.isEmpty then
      .error (.invalid (setting "source profile") "''" "a credential profile")
    else if e.table.isNone && d.query.isNone then
      .error (.invalid (setting "source") "none" "a source table or query")
    else .ok ()
  match d.source with
  | .store table _ =>
    if table.isEmpty && d.query.isNone then
      .error (.invalid (setting "source") "''" "a source table or query")
    else .ok ()
  | .postgreSql e => external e
  | .mySql e => external e
  | .http profile format =>
    if profile.isEmpty || format.isEmpty then
      .error (.invalid (setting "source") "HTTP" "a credential profile and a format")
    else .ok ()

/-- Refuses a dictionary whose parts do not fit together. -/
def validate (d : Dictionary) (name : String) : Outcome Unit := do
  let setting (what : String) := "dictionary " ++ name ++ " " ++ what
  if d.keys.isEmpty then throw (.invalid (setting "keys") "none" "at least one key column")
  if d.attributes.isEmpty then
    throw (.invalid (setting "attributes") "none" "at least one attribute column")
  if !d.layout.isComplexKey && !d.hasSimpleKey then
    throw (.invalid (setting "layout") d.layout.render
      "a COMPLEX_KEY_* layout for composite or non-UInt64 keys")
  if d.layout.cells? = some 0 then
    throw (.invalid (setting "cache size") "0" "a positive cell count")
  if d.lifetime.max < d.lifetime.min then
    throw (.invalid (setting "lifetime") d.lifetime.range "MIN not greater than MAX")
  d.validateSource setting

/-! ## Sources -/

def part (name text : String) : String := name ++ " " ++ Text.literal text

/-- The source clause of a table of the store. -/
def storeSource (d : Dictionary) : Outcome String :=
  match d.source with
  | .store table database =>
    let read := match d.query with
      | some q => part "QUERY" q
      | none => part "TABLE" table
    .ok ("SOURCE(CLICKHOUSE(" ++
      " ".intercalate ((database.map (part "DB")).toList ++ [read]) ++ "))")
  | source => .error (.invalid "dictionary source" source.kindName
      "a CLICKHOUSE source; external sources are created at runtime")

/-- The source clause of another database, with the credentials in it. -/
def databaseSource (d : Dictionary) (e : ExternalDatabase) (c : Credentials) : Outcome String :=
  match c.host with
  | none => .error (.invalid ("credential profile " ++ e.profile ++ " host") "none" "a host name")
  | some host =>
    let read := match d.query with
      | some q => [part "QUERY" q]
      | none => (e.table.map (part "TABLE")).toList
    .ok ("SOURCE(" ++ d.source.kindName ++ "(" ++ " ".intercalate
      ([part "HOST" host] ++ (c.port.map fun p => "PORT " ++ toString p).toList ++
        (c.user.map (part "USER")).toList ++ (c.password.map (part "PASSWORD")).toList ++
        ((e.database.or c.database).map (part "DB")).toList ++ read) ++ "))")

/-- The source clause of a web address, with the credentials in it if both parts are known. -/
def webSource (profile format : String) (c : Credentials) : Outcome String :=
  match c.url with
  | none => .error (.invalid ("credential profile " ++ profile ++ " url") "none" "a URL")
  | some url =>
    let login := match c.user, c.password with
      | some user, some password =>
        ["CREDENTIALS(" ++ part "USER" user ++ " " ++ part "PASSWORD" password ++ ")"]
      | _, _ => []
    .ok ("SOURCE(HTTP(" ++
      " ".intercalate ([part "URL" url, part "FORMAT" format] ++ login) ++ "))")

/-- The source clause, with credentials where the source needs them. -/
def sourceWith (d : Dictionary) (c : Credentials) : Outcome String :=
  match d.source with
  | .store _ _ => d.storeSource
  | .postgreSql e => d.databaseSource e c
  | .mySql e => d.databaseSource e c
  | .http profile format => webSource profile format c

/-! ## Statements -/

def keyText (k : DictionaryColumn) (t : TypeDefaults) : Outcome String := do
  return Text.quoteName k.name ++ " " ++ (← t.resolve {} k.type)

def attributeText (a : DictionaryColumn) (t : TypeDefaults) : Outcome String := do
  return (← keyText a t) ++
    (a.default.map fun v => " DEFAULT " ++ v.literal).getD "" ++
    (a.expression.map (" EXPRESSION " ++ ·)).getD "" ++
    (if a.hierarchical then " HIERARCHICAL" else "") ++
    (if a.injective then " INJECTIVE" else "")

/-- The statement that creates the dictionary from a source clause. -/
def create (d : Dictionary) (object : ObjectName) (source : String) (t : TypeDefaults) :
    Outcome Statement := do
  let keys ← d.keys.mapM (keyText · t)
  let attributes ← d.attributes.mapM (attributeText · t)
  return ⟨"CREATE DICTIONARY IF NOT EXISTS", object,
    "\n(\n    " ++ ",\n    ".intercalate (keys ++ attributes) ++ "\n)\nPRIMARY KEY " ++
      Text.nameList (d.keys.map (·.name)) ++ "\n" ++ source ++ "\n" ++ d.lifetime.render ++ "\n" ++
      d.layout.render⟩

/-- The statement that creates a dictionary from a table of the store. -/
def createFromStore (d : Dictionary) (object : ObjectName) (t : TypeDefaults) :
    Outcome Statement := do
  d.create object (← d.storeSource) t

/-- The statement that creates a dictionary from outside the store, with the credentials that
are known for its profile. It belongs into no script. -/
def createExternal (d : Dictionary) (p : Provider) (object : ObjectName)
    (credentials : String → Outcome Credentials) : Outcome String := do
  d.validate object.name
  match d.source.profile? with
  | none => .error (.invalid ("dictionary " ++ object.name ++ " source") "CLICKHOUSE"
      "an external source; ClickHouse-backed dictionaries are created by migrations")
  | some profile =>
    let source ← d.sourceWith (← credentials profile)
    return p.terminate ((← d.create object source p.types).render none)

end Dictionary

end ColumnStore
