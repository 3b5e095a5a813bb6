-- A store that is scripted in advance: whether the history table is there,
-- which rows it holds, and which statements it refuses. It keeps the text of
-- everything that was sent to it.
import ColumnStore.Migration.History
import ColumnStore.Text.Search

namespace ColumnStore

structure ScriptedStore where
  hasTable : Bool := false
  rows : List (List String) := []
  /-- Texts that hold this are refused. -/
  refused : Option String := none
  /-- What was sent, the last first. -/
  sent : List String := []

namespace ScriptedStore

def holds (word text : String) : Bool := Text.occurs word.toList text.toList

/-- Notes a text and refuses it if the script says so. -/
def receive (sql : String) (s : ScriptedStore) : Outcome Unit × ScriptedStore :=
  let s := { s with sent := sql :: s.sent }
  match s.refused with
  | some word =>
    if holds word sql then (.error (.execution ("mock refused " ++ word)), s) else (.ok (), s)
  | none => (.ok (), s)

def executor : Executor ScriptedStore where
  execute sql s :=
    match receive sql s with
    | (.error f, s) => (.error f, s)
    | (.ok (), s) =>
      (.ok (), { s with hasTable := s.hasTable || "CREATE TABLE".isPrefixOf sql })
  query sql s :=
    match receive sql s with
    | (.error f, s) => (.error f, s)
    | (.ok (), s) =>
      if holds "system.tables" sql then (.ok (if s.hasTable then [["1"]] else []), s)
      else (.ok s.rows, s)

end ScriptedStore

end ColumnStore
