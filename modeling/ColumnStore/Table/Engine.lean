-- Table engines. Those of the MergeTree family keep sorted parts and take
-- arguments; the others take neither arguments nor sorting clauses.
import ColumnStore.Fault
import ColumnStore.Text.Quoted
import ColumnStore.Text.Search

namespace ColumnStore

inductive Engine where
  | mergeTree
  | replacing (version deleted : Option String)
  | summing (columns : List String)
  | aggregating
  | collapsing (sign : String)
  | versionedCollapsing (sign version : String)
  | memory
  | null
  | log
  | tinyLog
  deriving DecidableEq, Repr

namespace Engine

def name : Engine → String
  | mergeTree => "MergeTree"
  | replacing _ _ => "ReplacingMergeTree"
  | summing _ => "SummingMergeTree"
  | aggregating => "AggregatingMergeTree"
  | collapsing _ => "CollapsingMergeTree"
  | versionedCollapsing _ _ => "VersionedCollapsingMergeTree"
  | memory => "Memory"
  | null => "Null"
  | log => "Log"
  | tinyLog => "TinyLog"

def isMergeTree : Engine → Bool
  | memory | null | log | tinyLog => false
  | _ => true

/-- Whether rows can be read in their latest version alone. -/
def supportsFinal (e : Engine) : Bool := e.isMergeTree

/-- The engine's arguments; several columns to sum up are one argument. -/
def arguments : Engine → List String
  | replacing version deleted => (version.toList ++ deleted.toList).map Text.quoteName
  | summing [] => []
  | summing [c] => [Text.quoteName c]
  | summing columns => ["(" ++ Text.nameList columns ++ ")"]
  | collapsing sign => [Text.quoteName sign]
  | versionedCollapsing sign version => [Text.quoteName sign, Text.quoteName version]
  | _ => []

/-- Refuses a blank column name as the parameter of an engine. -/
def requireColumn (e : Engine) (table parameter column : String) : Outcome Unit :=
  if Text.isBlankText column then
    .error (.invalid (e.name ++ "." ++ parameter ++ " on " ++ table) "''" "a column name")
  else .ok ()

def validate (e : Engine) (table : String) : Outcome Unit :=
  match e with
  | replacing version deleted => do
    for v in version do e.requireColumn table "version" v
    for d in deleted do
      e.requireColumn table "is_deleted" d
      if version.isNone then
        throw (.invalid ("ReplacingMergeTree.is_deleted on " ++ table) d
          "a version column as well; is_deleted requires version")
  | summing columns => columns.forM (e.requireColumn table "columns")
  | collapsing sign => e.requireColumn table "sign" sign
  | versionedCollapsing sign version => do
    e.requireColumn table "sign" sign
    e.requireColumn table "version" version
  | _ => .ok ()

end Engine

end ColumnStore
