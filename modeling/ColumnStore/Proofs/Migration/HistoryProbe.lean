-- The probe for the history table and the scripts that work on it each name
-- the table in their own way: the probe by two literals, the scripts by a
-- qualified name. They mean the same table unless the database's name is
-- empty, which the qualified name alone takes for none.
import ColumnStore.Migration.History
import ColumnStore.Proofs.Table.Creation

namespace ColumnStore.History

open Text ObjectName

/-! ## The probe -/

/-- The database that a probe compares with; none is the session's own. -/
def readDatabase (cs : List Char) : Option (Option String × List Char) :=
  match skip? "currentDatabase()" cs with
  | some rest => some (none, rest)
  | none => (readQuotedLiteral cs).map fun (database, rest) => (some database, rest)

/-- The table that a probe looks for. -/
def probed? (text : String) : Option ObjectName := do
  let rest ← skip? "SELECT 1 FROM system.tables WHERE database = " text.toList
  let (database, rest) ← readDatabase rest
  let (table, _) ← readQuotedLiteral (← skip? " AND name = " rest)
  return ⟨database, table⟩

theorem readDatabase_own (rest : List Char) :
    readDatabase ("currentDatabase()".toList ++ rest) = some (none, rest) := by
  rw [readDatabase, skip?_append]

theorem readDatabase_literal (database : String) (rest : List Char) :
    readDatabase ((literal database).toList ++ rest) = some (some database, rest) := by
  have hquote : skip? "currentDatabase()" ((literal database).toList ++ rest) = none := by
    rw [toList_literal]
    rfl
  rw [readDatabase, hquote, readQuotedLiteral_literal]
  rfl

/-- A probe compares with the database as the provider gives it, also with an empty name. -/
theorem probed?_existsQuery (p : Provider) : probed? (existsQuery p) = some (object p) := by
  rw [probed?, existsQuery, Provider.terminate]
  cases hdatabase : p.database <;>
    simp only [String.toList_append, List.append_assoc, skip?_append, Option.bind_eq_bind,
      Option.bind_some, readDatabase_own, readDatabase_literal, readQuotedLiteral_literal, object,
      hdatabase] <;> rfl

/-! ## The scripts -/

theorem behind?_createScript {p : Provider} {text : String} (h : createScript p = .ok text) :
    behind? "CREATE TABLE IF NOT EXISTS " text = some (object p).written := by
  unfold createScript at h
  obtain ⟨_, _, h⟩ := Outcome.bind_eq_ok.mp h
  obtain ⟨s, hs, rfl⟩ := Outcome.bind_pure_eq_ok.mp h
  have hcreates := Entity.creates_createTable hs
  have hread := Statement.behind?_render (hcreates.ends p.terminator) p.cluster
  rwa [hcreates.verb_eq, hcreates.object_eq] at hread

theorem behind?_appliedQuery (p : Provider) :
    behind? "SELECT \"migration_id\", \"product_version\" FROM " (appliedQuery p) =
      some (object p).written := by
  have hcolumns : "SELECT " ++ quoteName idColumn ++ ", " ++ quoteName versionColumn ++ " FROM " =
      "SELECT \"migration_id\", \"product_version\" FROM " := by decide
  rw [appliedQuery, Provider.terminate, hcolumns]
  simp only [String.append_assoc]
  exact behind?_eq_written _ _ (by simp [Ends])

theorem behind?_insertScript (p : Provider) (row : HistoryRow) :
    behind? "INSERT INTO " (insertScript p row) = some (object p).written := by
  rw [insertScript, Provider.terminate]
  simp only [String.append_assoc]
  exact behind?_eq_written _ _ (by simp [Ends])

theorem behind?_deleteScript (p : Provider) (id : String) :
    behind? "DELETE FROM " (deleteScript p id) = some (object p).written := by
  let s : Statement :=
    ⟨"DELETE FROM", object p, " WHERE " ++ quoteName idColumn ++ " = " ++ literal id⟩
  have hends : Ends (s.rest ++ p.terminator).toList := by simp [s, Ends]
  exact Statement.behind?_render hends p.cluster

/-! ## The law -/

/-- Only an empty name is not written. -/
theorem written_object_eq_iff (p : Provider) :
    (object p).written = object p ↔ p.database ≠ some "" := by
  unfold object written
  cases p.database with
  | none => simp
  | some database => by_cases h : database = "" <;> simp [Option.filter, h]

/-- The probe and every script are about one table exactly when the database has a name or none
is given. -/
theorem probe_finds_scripted_table_iff (p : Provider) :
    (∃ o, probed? (existsQuery p) = some o ∧
      (∀ text, createScript p = .ok text → behind? "CREATE TABLE IF NOT EXISTS " text = some o) ∧
      behind? "SELECT \"migration_id\", \"product_version\" FROM " (appliedQuery p) = some o ∧
      (∀ row, behind? "INSERT INTO " (insertScript p row) = some o) ∧
      ∀ id, behind? "DELETE FROM " (deleteScript p id) = some o) ↔ p.database ≠ some "" := by
  rw [← written_object_eq_iff, probed?_existsQuery]
  constructor
  · rintro ⟨o, hprobe, _, happlied, _, _⟩
    rw [behind?_appliedQuery] at happlied
    rw [Option.some.inj happlied, Option.some.inj hprobe]
  · intro h
    refine ⟨object p, rfl, fun text htext => ?_, ?_, fun row => ?_, fun id => ?_⟩
    · rw [behind?_createScript htext, h]
    · rw [behind?_appliedQuery, h]
    · rw [behind?_insertScript, h]
    · rw [behind?_deleteScript, h]

/-- With an empty name the probe looks into a database of no name, while the scripts leave the
table unqualified and so in the session's own database. -/
theorem empty_database_is_probed_elsewhere :
    let p : Provider := { database := some "" }
    probed? (existsQuery p) = some ⟨some "", "__migrations_history"⟩ ∧
      behind? "SELECT \"migration_id\", \"product_version\" FROM " (appliedQuery p) =
        some ⟨none, "__migrations_history"⟩ ∧
      behind? "DELETE FROM " (deleteScript p "1") = some ⟨none, "__migrations_history"⟩ := by
  intro p
  have hwritten : (object p).written = ⟨none, "__migrations_history"⟩ := by decide
  rw [← hwritten]
  exact ⟨probed?_existsQuery p, behind?_appliedQuery p, behind?_deleteScript p "1"⟩

end ColumnStore.History
