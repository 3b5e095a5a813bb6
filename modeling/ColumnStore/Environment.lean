-- How an application uses the store, and its configuration from environment
-- variables. Names are matched without regard to case and are paths of settings,
-- values are texts as they stand, and what no field asks for is passed over.
import ColumnStore.Environment.Setting
import ColumnStore.Fault
import ColumnStore.Text.Printable
import ColumnStore.Text.Search
import ColumnStore.Types.ValueType

namespace ColumnStore

/-! ## What is configured -/

/-- What becomes of migration operations that wait for one another. -/
inductive CyclePolicy where
  /-- They keep the order they were given in. -/
  | preserveOrder
  /-- The whole migration is refused. -/
  | fail
  deriving DecidableEq, Repr

structure Provider where
  terminator : String := ";"
  database : Option String := none
  cluster : Option String := none
  replicationPath : String := "/clickhouse/tables/\x7bshard\x7d/\x7bdatabase\x7d/\x7btable\x7d"
  replicaName : String := "\x7breplica\x7d"
  historyTable : String := "__migrations_history"
  types : TypeDefaults := {}
  cyclePolicy : CyclePolicy := .preserveOrder
  deriving DecidableEq, Repr

/-- The statement with the terminator behind it. -/
def Provider.terminate (p : Provider) (statement : String) : String := statement ++ p.terminator

/-- Credentials of a database outside the store. -/
structure Credentials where
  host : Option String := none
  port : Option Nat := none
  user : Option String := none
  password : Option String := none
  database : Option String := none
  url : Option String := none
  deriving DecidableEq, Repr

namespace Credentials

def shownOption (text : Option String) : String :=
  match text with
  | some t => "Some(" ++ t ++ ")"
  | none => "None"

/-- The credentials as a developer sees them; a password shows only that there is one. -/
def shown (c : Credentials) : String :=
  let fields := [
    ("host", c.host.map Text.shown),
    ("port", c.port.map toString),
    ("user", c.user.map Text.shown),
    ("password", c.password.map fun _ => Text.shown "***"),
    ("database", c.database.map Text.shown),
    ("url", c.url.map Text.shown)]
  "ResolvedCredentials \x7b " ++
    ", ".intercalate (fields.map fun f => f.1 ++ ": " ++ shownOption f.2) ++ " \x7d"

end Credentials

/-! ## Environment variables -/

/-- Environment variables, the last value of each name. -/
abbrev Environment := List (String × String)

/-! ## Settings as texts and numbers -/

namespace Setting

/-- What keeps a setting from being a text, or the text. -/
def content : Setting → Except SettingShape String
  | text s => .ok s
  | nothing => .error .nothing
  | list _ => .error .list
  | table _ => .error .table

def string (key : String) (s : Setting) : Except EnvironmentCause String :=
  s.content.mapError (.notText · key)

/-- A whole number of some bits. The words for true and false are one and zero. -/
def number (bits : Nat) (key : String) (s : Setting) : Except EnvironmentCause Nat := do
  let text ← s.content.mapError (.notNumber · key)
  let word := Text.lowercase text
  if word = "true" || word = "on" || word = "yes" then return 1
  if word = "false" || word = "off" || word = "no" then return 0
  match Text.readUInt64 text.toList with
  | .error _ => throw (.notInteger text key)
  | .ok n => if n.toNat < Nat.pow 2 bits then return n.toNat else throw (.tooWide n.toNat bits key)

/-- A setting that may be left out. A place that was passed over in a list is left out too. -/
def optional {α : Type} (read : Setting → Except EnvironmentCause α) :
    Option Setting → Except EnvironmentCause (Option α)
  | none | some nothing => .ok none
  | some s => some <$> read s

def policyOfName (name : String) : Except EnvironmentCause CyclePolicy :=
  match Text.lowercase name with
  | "preserve_order" => .ok .preserveOrder
  | "fail" => .ok .fail
  | _ => .error (.unknownPolicy name)

/-- A policy is its name, or a table with that name alone. -/
def policy : Setting → Except EnvironmentCause CyclePolicy
  | text name => policyOfName name
  | table [(name, _)] => policyOfName name
  | _ => .error .policyShape

/-- A field of a section: a table has it under its name, a list at its position. -/
def field (s : Setting) (position : Nat) (name : String) : Option Setting :=
  match s with
  | table entries => entries.lookup name
  | list items => items[position]?
  | _ => none

end Setting

namespace Environment

def ofList (assignments : List (String × String)) : Environment :=
  assignments.foldl (fun e v => assign v.1 v.2 e) []

/-- The variables whose names start with `start`, under what is left of their names in lower
case. -/
def startingWith (e : Environment) (start : String) : List (String × String) :=
  let start := (Text.lowercase start).toList
  e.filterMap fun (name, value) =>
    let name := (Text.lowercase name).toList
    if start.isPrefixOf name then some (.ofList (name.drop start.length), value) else none

/-! ## The provider -/

/-- The settings of all variables of the provider, two underscores in a name parting section
and field. -/
def providerSettings (e : Environment) : Setting :=
  .ofTexts ((e.startingWith "CLICKGUARD__").map fun (name, value) =>
    (.ofList (Text.replacePair '_' '_' '.' name.toList), value))

/-- The provider's section, field by field in the order that a list of settings follows. -/
def readProvider (s : Setting) : Except EnvironmentCause Provider := do
  let key := "clickhouse"
  let text (position : Nat) (name standard : String) : Except EnvironmentCause String :=
    match s.field position name with
    | none => .ok standard
    | some s => s.string key
  let text? (position : Nat) (name : String) : Except EnvironmentCause (Option String) :=
    Setting.optional (Setting.string key) (s.field position name)
  let byte (position : Nat) (name : String) (standard : Nat) : Except EnvironmentCause Nat :=
    match s.field position name with
    | none => .ok standard
    | some s => s.number 8 key
  let standard : Provider := {}
  let terminator ← text 0 "statement_terminator" standard.terminator
  let database ← text? 1 "database"
  let cluster ← text? 2 "cluster"
  let replicationPath ← text 3 "replication_path" standard.replicationPath
  let replicaName ← text 4 "replica_name" standard.replicaName
  let historyTable ← text 5 "history_table" standard.historyTable
  let decimalPrecision ← byte 6 "default_decimal_precision" standard.types.decimalPrecision
  let decimalScale ← byte 7 "default_decimal_scale" standard.types.decimalScale
  let timePrecision ← byte 8 "default_datetime_precision" standard.types.timePrecision
  let timezone ← text? 9 "default_timezone"
  let cyclePolicy ← match s.field 10 "cycle_policy" with
    | none => pure standard.cyclePolicy
    | some s => s.policy
  return {
    terminator, database, cluster, replicationPath, replicaName, historyTable, cyclePolicy
    types := { decimalPrecision, decimalScale, timePrecision, timezone } }

/-- The provider that the variables describe, with defaults for what they leave out. -/
def provider (e : Environment) : Outcome Provider :=
  match e.providerSettings.entries.lookup "clickhouse" with
  | none => .ok {}
  | some (.text t) => .error (.provider (.sectionIsText t))
  | some s => (readProvider s).mapError .provider

/-! ## Credentials -/

/-- What the names of a profile's variables start with: its letters and digits in upper case,
and an underscore for every other character. -/
def credentialPrefix (profile : String) : String :=
  .ofList (profile.toList.map fun c => if c.isAlphanum then c.toUpper else '_')

def readCredentials (s : Setting) : Except EnvironmentCause Credentials := do
  let text? (name : String) : Except EnvironmentCause (Option String) :=
    Setting.optional (Setting.string name) (s.entries.lookup name)
  let host ← text? "host"
  let port ← Setting.optional (Setting.number 16 "port") (s.entries.lookup "port")
  let user ← text? "user"
  let password ← text? "password"
  let database ← text? "database"
  let url ← text? "url"
  return { host, port, user, password, database, url }

/-- The credentials of a profile; they have to have a host or a web address. -/
def credentials (e : Environment) (profile : String) : Outcome Credentials :=
  let start := credentialPrefix profile
  let setting := "credential profile " ++ profile
  match readCredentials (.ofTexts (e.startingWith (start ++ "_"))) with
  | .error cause => .error (.invalid setting cause.text
      ("well-formed " ++ start ++ "_* variables with " ++ start ++ "_PORT a TCP port number"))
  | .ok c =>
    if c.host.isNone && c.url.isNone then
      .error (.invalid setting "no host or url" (start ++ "_HOST or " ++ start ++ "_URL to be set"))
    else .ok c

end Environment

end ColumnStore
