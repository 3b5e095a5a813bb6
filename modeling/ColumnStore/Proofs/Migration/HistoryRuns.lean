-- Runs of the migration history against a store that keeps its table. Each
-- answer follows from the answers before it: the table is there once a call
-- has created it, and holds the rows that calls have recorded since.
import ColumnStore.Proofs.Migration.HistoryProbe

namespace ColumnStore

variable {σ : Type}

/-- The executor behaves as a store for the history table, whose rows in a state are `rows`: none
where there is no table. What other statements do is left open, as the history sends no others. -/
structure Executor.KeepsHistory (x : Executor σ) (p : Provider)
    (rows : σ → Option (List HistoryRow)) : Prop where
  /-- The probe has a row when the table is there. -/
  probes : ∀ s, ∃ answer, (x.query (History.existsQuery p) s).1 = .ok answer ∧
    (!answer.isEmpty) = (rows s).isSome
  /-- The script creates the table, and leaves one alone that is there. -/
  creates : ∀ s sql, History.createScript p = .ok sql →
    (x.execute sql s).1 = .ok () ∧ rows (x.execute sql s).2 = some ((rows s).getD [])
  /-- A row is appended to the table. -/
  appends : ∀ s row table, rows s = some table →
    (x.execute (History.insertScript p row) s).1 = .ok () ∧
      rows (x.execute (History.insertScript p row) s).2 = some (table ++ [row])
  /-- A row has no place without a table. -/
  refuses : ∀ s row, rows s = none →
    (∃ fault, (x.execute (History.insertScript p row) s).1 = .error fault) ∧
      rows (x.execute (History.insertScript p row) s).2 = none
  /-- The rows are listed by id. -/
  lists : ∀ s table, rows s = some table → ∃ listed : List HistoryRow,
    (x.query (History.appliedQuery p) s).1 = .ok (listed.map fun row => [row.id, row.version]) ∧
      listed.Perm table ∧ listed.Pairwise (·.id ≤ ·.id)
  /-- A query changes nothing. -/
  keeps : ∀ sql s, rows (x.query sql s).2 = rows s

/-- The same store with a note of each statement that it was told to execute. -/
def Executor.noting (x : Executor σ) : Executor (σ × List String) where
  execute sql s := ((x.execute sql s.1).1, (x.execute sql s.1).2, s.2 ++ [sql])
  query sql s := ((x.query sql s.1).1, (x.query sql s.1).2, s.2)

namespace History

open Text ObjectName

/-! ## Calls and what they leave behind -/

inductive Call where
  | tableExists
  | ensureCreated
  | record (row : HistoryRow)
  | applied
  deriving DecidableEq, Repr

/-- What a call answers with. -/
@[reducible] def Call.Answer : Call → Type
  | .tableExists => Bool
  | .ensureCreated => Bool
  | .record _ => Unit
  | .applied => List HistoryRow

def Call.perform (p : Provider) (x : Executor σ) : (c : Call) → Session σ c.Answer
  | .tableExists => History.tableExists p x
  | .ensureCreated => History.ensureCreated p x
  | .record row => History.record p x row
  | .applied => History.applied p x

/-- A call with its answer and the statements that were executed for it. -/
structure Event where
  call : Call
  answer : Outcome call.Answer
  executed : List String

def Event.creates : Event → Bool
  | ⟨.ensureCreated, .ok true, _⟩ => true
  | _ => false

def Event.recorded? : Event → Option HistoryRow
  | ⟨.record row, .ok (), _⟩ => some row
  | _ => none

/-- Some call says that it created the table. -/
def created (log : List Event) : Bool := log.any Event.creates

/-- The rows that were recorded with success, in turn. -/
def recorded (log : List Event) : List HistoryRow := log.filterMap Event.recorded?

def Call.run (p : Provider) (x : Executor σ) (c : Call) (s : σ) : Event × σ :=
  let (answer, s, executed) := (c.perform p x.noting).run.run (s, [])
  (⟨c, answer, executed⟩, s)

/-- The calls one after another; a failure does not end the run. -/
def run (p : Provider) (x : Executor σ) : List Call → σ → List Event × σ
  | [], s => ([], s)
  | c :: calls, s =>
    let (e, s) := c.run p x s
    let (log, s) := run p x calls s
    (e :: log, s)

/-- What a call may answer and execute after the calls before it. -/
inductive Follows (p : Provider) (before : List Event) : Event → Prop where
  | probes : Follows p before ⟨.tableExists, .ok (created before), []⟩
  | keeps (h : created before = true) : Follows p before ⟨.ensureCreated, .ok false, []⟩
  | creates {sql : String} (h : created before = false) (hscript : createScript p = .ok sql) :
      Follows p before ⟨.ensureCreated, .ok true, [sql]⟩
  | unscripted {fault : Fault} (h : created before = false)
      (hscript : createScript p = .error fault) :
      Follows p before ⟨.ensureCreated, .error fault, []⟩
  | appends (row : HistoryRow) (h : created before = true) :
      Follows p before ⟨.record row, .ok (), [insertScript p row]⟩
  | refuses (row : HistoryRow) (fault : Fault) (h : created before = false) :
      Follows p before ⟨.record row, .error fault, [insertScript p row]⟩
  | nothing (h : created before = false) : Follows p before ⟨.applied, .ok [], []⟩
  | lists {rows : List HistoryRow} (h : created before = true)
      (hrows : rows.Perm (recorded before)) (hsorted : rows.Pairwise (·.id ≤ ·.id)) :
      Follows p before ⟨.applied, .ok rows, []⟩

/-- The table is as the log tells. -/
structure Tells (log : List Event) (table : Option (List HistoryRow)) : Prop where
  created_eq : created log = table.isSome
  recorded_eq : recorded log = table.getD []

theorem tells_nil : Tells [] none := ⟨rfl, rfl⟩

theorem created_snoc (log : List Event) (e : Event) :
    created (log ++ [e]) = (created log || e.creates) := by
  simp [created]

theorem recorded_snoc (log : List Event) (e : Event) :
    recorded (log ++ [e]) = recorded log ++ e.recorded?.toList := by
  rw [recorded, List.filterMap_append]
  cases h : e.recorded? <;> simp [recorded, h]

section tells

variable {log : List Event} {table : List HistoryRow} {e : Event}

/-- A call that neither creates nor records leaves the table as it was told. -/
theorem Tells.unchanged {table : Option (List HistoryRow)} (h : Tells log table)
    (hcreates : e.creates = false) (hrecorded : e.recorded? = none) : Tells (log ++ [e]) table := by
  constructor
  · rw [created_snoc, hcreates, Bool.or_false, h.created_eq]
  · rw [recorded_snoc, hrecorded, h.recorded_eq]
    exact List.append_nil _

theorem Tells.creates (h : Tells log none) (hcreates : e.creates = true)
    (hrecorded : e.recorded? = none) : Tells (log ++ [e]) (some []) := by
  constructor
  · rw [created_snoc, hcreates, Bool.or_true]
    rfl
  · rw [recorded_snoc, hrecorded, h.recorded_eq]
    rfl

theorem Tells.records {row : HistoryRow} (h : Tells log (some table)) (hcreates : e.creates = false)
    (hrecorded : e.recorded? = some row) : Tells (log ++ [e]) (some (table ++ [row])) := by
  constructor
  · rw [created_snoc, hcreates, Bool.or_false, h.created_eq]
    rfl
  · rw [recorded_snoc, hrecorded, h.recorded_eq]
    rfl

end tells

/-! ## One call -/

/-- A chain goes on from what its first step answers and leaves. -/
theorem run_bind_of_ok {α β : Type} {act : Session σ α} {next : α → Session σ β} {s s' : σ} {a : α}
    (h : act.run.run s = (.ok a, s')) : (act >>= next).run.run s = (next a).run.run s' := by
  rw [ExceptT.run_bind, StateT.run_bind, h]
  rfl

section step

variable {x : Executor σ} {p : Provider} {rows : σ → Option (List HistoryRow)}

theorem execute_noting {s : σ} {sql : String} {answer : Outcome Unit}
    (h : (x.execute sql s).1 = answer) :
    (execute x.noting sql).run.run (s, []) = (answer, (x.execute sql s).2, [sql]) :=
  congrArg (·, (x.execute sql s).2, [sql]) h

theorem query_noting {s : σ} {sql : String} {answer : Outcome (List (List String))}
    (h : (x.query sql s).1 = answer) :
    (query x.noting sql).run.run (s, []) = (answer, (x.query sql s).2, []) :=
  congrArg (·, (x.query sql s).2, []) h

theorem tableExists_run (h : x.KeepsHistory p rows) (s : σ) :
    ∃ s', rows s' = rows s ∧
      (tableExists p x.noting).run.run (s, []) = (.ok (rows s).isSome, s', []) := by
  obtain ⟨answer, hanswer, hisSome⟩ := h.probes s
  refine ⟨(x.query (existsQuery p) s).2, h.keeps _ _, ?_⟩
  rw [tableExists, run_bind_of_ok (query_noting hanswer), hisSome]
  rfl

theorem ensureCreated_run_of_some (h : x.KeepsHistory p rows) {s : σ} {table : List HistoryRow}
    (htable : rows s = some table) :
    ∃ s', rows s' = some table ∧
      (ensureCreated p x.noting).run.run (s, []) = (.ok false, s', []) := by
  obtain ⟨s', hrows, hexists⟩ := tableExists_run h s
  refine ⟨s', hrows.trans htable, ?_⟩
  rw [ensureCreated, run_bind_of_ok hexists, htable]
  rfl

theorem ensureCreated_run_of_script (h : x.KeepsHistory p rows) {s : σ} (htable : rows s = none)
    {sql : String} (hscript : createScript p = .ok sql) :
    ∃ s', rows s' = some [] ∧
      (ensureCreated p x.noting).run.run (s, []) = (.ok true, s', [sql]) := by
  obtain ⟨s', hrows, hexists⟩ := tableExists_run h s
  obtain ⟨hok, hcreated⟩ := h.creates s' sql hscript
  refine ⟨(x.execute sql s').2, ?_, ?_⟩
  · rw [hcreated, hrows, htable]
    rfl
  · rw [ensureCreated, run_bind_of_ok hexists, htable, hscript]
    exact run_bind_of_ok (execute_noting hok)

theorem ensureCreated_run_of_fault (h : x.KeepsHistory p rows) {s : σ} (htable : rows s = none)
    {fault : Fault} (hscript : createScript p = .error fault) :
    ∃ s', rows s' = none ∧
      (ensureCreated p x.noting).run.run (s, []) = (.error fault, s', []) := by
  obtain ⟨s', hrows, hexists⟩ := tableExists_run h s
  refine ⟨s', hrows.trans htable, ?_⟩
  rw [ensureCreated, run_bind_of_ok hexists, htable, hscript]
  rfl

theorem record_run_of_some (h : x.KeepsHistory p rows) {s : σ} {table : List HistoryRow}
    (htable : rows s = some table) (row : HistoryRow) :
    ∃ s', rows s' = some (table ++ [row]) ∧
      (record p x.noting row).run.run (s, []) = (.ok (), s', [insertScript p row]) := by
  obtain ⟨hok, hrows⟩ := h.appends s row table htable
  exact ⟨_, hrows, execute_noting hok⟩

theorem record_run_of_none (h : x.KeepsHistory p rows) {s : σ} (htable : rows s = none)
    (row : HistoryRow) :
    ∃ s' fault, rows s' = none ∧
      (record p x.noting row).run.run (s, []) = (.error fault, s', [insertScript p row]) := by
  obtain ⟨⟨fault, hfault⟩, hrows⟩ := h.refuses s row htable
  exact ⟨_, fault, hrows, execute_noting hfault⟩

theorem mapM_rowOf (rows : List HistoryRow) :
    (rows.map fun row => [row.id, row.version]).mapM rowOf = .ok rows := by
  rw [Outcome.mapM_eq_ok, List.forall₂_map_left_iff]
  exact List.forall₂_same.mpr fun _ _ => rfl

theorem applied_run_of_some (h : x.KeepsHistory p rows) {s : σ} {table : List HistoryRow}
    (htable : rows s = some table) :
    ∃ s' listed, rows s' = some table ∧ listed.Perm table ∧ listed.Pairwise (·.id ≤ ·.id) ∧
      (applied p x.noting).run.run (s, []) = (.ok listed, s', []) := by
  obtain ⟨s', hrows, hexists⟩ := tableExists_run h s
  obtain ⟨listed, hlisted, hperm, hsorted⟩ := h.lists s' table (hrows.trans htable)
  refine ⟨(x.query (appliedQuery p) s').2, listed, ?_, hperm, hsorted, ?_⟩
  · rw [h.keeps, hrows, htable]
  · rw [applied, run_bind_of_ok hexists, htable]
    refine (run_bind_of_ok (query_noting hlisted)).trans ?_
    rw [mapM_rowOf]
    rfl

theorem applied_run_of_none (h : x.KeepsHistory p rows) {s : σ} (htable : rows s = none) :
    ∃ s', rows s' = none ∧ (applied p x.noting).run.run (s, []) = (.ok [], s', []) := by
  obtain ⟨s', hrows, hexists⟩ := tableExists_run h s
  refine ⟨s', hrows.trans htable, ?_⟩
  rw [applied, run_bind_of_ok hexists, htable]
  rfl

theorem Call.run_eq {c : Call} {s s' : σ} {answer : Outcome c.Answer} {executed : List String}
    (h : (c.perform p x.noting).run.run (s, []) = (answer, s', executed)) :
    c.run p x s = (⟨c, answer, executed⟩, s') := by
  rw [Call.run, h]

/-- What one call answers and executes follows from the log, which tells of the table also after
it. -/
theorem follows_run (h : x.KeepsHistory p rows) {before : List Event} {s : σ}
    (htells : Tells before (rows s)) (c : Call) :
    Follows p before (c.run p x s).1 ∧
      Tells (before ++ [(c.run p x s).1]) (rows (c.run p x s).2) := by
  have hcreated := htells.created_eq
  cases c with
  | tableExists =>
    obtain ⟨s', hrows, hrun⟩ := tableExists_run h s
    rw [Call.tableExists.run_eq hrun, hrows, ← hcreated]
    exact ⟨.probes, htells.unchanged rfl rfl⟩
  | ensureCreated =>
    cases htable : rows s with
    | some table =>
      obtain ⟨s', hrows, hrun⟩ := ensureCreated_run_of_some h htable
      rw [htable] at htells hcreated
      rw [Call.ensureCreated.run_eq hrun, hrows]
      exact ⟨.keeps hcreated, htells.unchanged rfl rfl⟩
    | none =>
      rw [htable] at htells hcreated
      cases hscript : createScript p with
      | error fault =>
        obtain ⟨s', hrows, hrun⟩ := ensureCreated_run_of_fault h htable hscript
        rw [Call.ensureCreated.run_eq hrun, hrows]
        exact ⟨.unscripted hcreated hscript, htells.unchanged rfl rfl⟩
      | ok sql =>
        obtain ⟨s', hrows, hrun⟩ := ensureCreated_run_of_script h htable hscript
        rw [Call.ensureCreated.run_eq hrun, hrows]
        exact ⟨.creates hcreated hscript, htells.creates rfl rfl⟩
  | record row =>
    cases htable : rows s with
    | some table =>
      obtain ⟨s', hrows, hrun⟩ := record_run_of_some h htable row
      rw [htable] at htells hcreated
      rw [(Call.record row).run_eq hrun, hrows]
      exact ⟨.appends row hcreated, htells.records rfl rfl⟩
    | none =>
      obtain ⟨s', fault, hrows, hrun⟩ := record_run_of_none h htable row
      rw [htable] at htells hcreated
      rw [(Call.record row).run_eq hrun, hrows]
      exact ⟨.refuses row fault hcreated, htells.unchanged rfl rfl⟩
  | applied =>
    cases htable : rows s with
    | some table =>
      obtain ⟨s', listed, hrows, hperm, hsorted, hrun⟩ := applied_run_of_some h htable
      rw [htable] at htells hcreated
      have hlisted : listed.Perm (recorded before) := htells.recorded_eq ▸ hperm
      rw [Call.applied.run_eq hrun, hrows]
      exact ⟨.lists hcreated hlisted hsorted, htells.unchanged rfl rfl⟩
    | none =>
      obtain ⟨s', hrows, hrun⟩ := applied_run_of_none h htable
      rw [htable] at htells hcreated
      rw [Call.applied.run_eq hrun, hrows]
      exact ⟨.nothing hcreated, htells.unchanged rfl rfl⟩

/-! ## Whole runs -/

/-- Each event follows from those before it. -/
inductive Faithful (p : Provider) : List Event → Prop where
  | nil : Faithful p []
  | snoc {log : List Event} {e : Event} :
      Faithful p log → Follows p log e → Faithful p (log ++ [e])

theorem faithful_run (h : x.KeepsHistory p rows) (calls : List Call) {before : List Event} {s : σ}
    (hbefore : Faithful p before) (htells : Tells before (rows s)) :
    Faithful p (before ++ (run p x calls s).1) ∧
      Tells (before ++ (run p x calls s).1) (rows (run p x calls s).2) := by
  -- What is kept from call to call is that the log is faithful and tells of the table.
  induction calls generalizing before s with
  | nil =>
    rw [run, List.append_nil]
    exact ⟨hbefore, htells⟩
  | cons c calls ih =>
    obtain ⟨hfollows, htells⟩ := follows_run h htells c
    have hrest := ih (hbefore.snoc hfollows) htells
    rwa [List.append_assoc, List.singleton_append] at hrest

theorem map_call_run (p : Provider) (x : Executor σ) (calls : List Call) (s : σ) :
    (run p x calls s).1.map Event.call = calls := by
  induction calls generalizing s with
  | nil => rfl
  | cons c calls ih => exact congrArg (c :: ·) (ih _)

theorem Faithful.follows {log : List Event} (h : Faithful p log) :
    ∀ before e after, log = before ++ e :: after → Follows p before e := by
  induction h with
  | nil => simp
  | @snoc log last _ hlast ih =>
    intro before e after heq
    -- The event is the last one, or stands in the log before that.
    rcases List.eq_nil_or_concat after with rfl | ⟨after, last', rfl⟩
    · obtain ⟨rfl, hsame⟩ := List.append_inj' heq rfl
      exact List.singleton_inj.mp hsame ▸ hlast
    · rw [List.concat_eq_append, ← List.cons_append, ← List.append_assoc] at heq
      exact ih before e after (List.append_inj' heq rfl).1

/-- Only a table that is not there yet is created. -/
theorem Follows.created_eq_false {before : List Event} {e : Event} (h : Follows p before e)
    (hcreates : e.creates = true) : created before = false := by
  cases h with
  | creates h _ => exact h
  | _ => cases hcreates

theorem Faithful.countP_creates_le_one {log : List Event} (h : Faithful p log) :
    log.countP Event.creates ≤ 1 := by
  induction h with
  | nil => exact Nat.zero_le 1
  | @snoc log e _ hfollows ih =>
    rw [List.countP_append, List.countP_singleton]
    split
    · rename_i hcreates
      have hnone : log.countP Event.creates = 0 := by
        rw [List.countP_eq_zero, ← List.any_eq_false]
        exact hfollows.created_eq_false hcreates
      omega
    · exact ih

end step

/-! ## The statements of rows -/

/-- What stands in front of the values of a row. -/
def insertHead (p : Provider) : String :=
  "INSERT INTO " ++ (object p).quoted ++ " (" ++ nameList [idColumn, versionColumn] ++ ") VALUES ("

/-- The row whose statement a text is. -/
def row? (p : Provider) (sql : String) : Option HistoryRow := do
  let (id, rest) ← readQuotedLiteral (← skip? (insertHead p) sql.toList)
  let (version, _) ← readQuotedLiteral (← skip? ", " rest)
  return ⟨id, version⟩

theorem row?_insertScript (p : Provider) (row : HistoryRow) :
    row? p (insertScript p row) = some row := by
  have hscript : insertScript p row = insertHead p ++ literal row.id ++ ", " ++
      literal row.version ++ ")" ++ p.terminator := rfl
  rw [row?, hscript]
  simp only [String.toList_append, List.append_assoc, skip?_append, readQuotedLiteral_literal,
    Option.bind_eq_bind, Option.bind_some]
  rfl

theorem insertScript_injective (p : Provider) : Function.Injective (insertScript p) := by
  intro row row' h
  have hrow := row?_insertScript p row
  rw [h, row?_insertScript] at hrow
  exact (Option.some.inj hrow).symm

/-- The table's script is not the statement of a row. -/
theorem createScript_ne_insertScript (p : Provider) (row : HistoryRow) :
    createScript p ≠ .ok (insertScript p row) := by
  intro h
  have hcreate := behind?_createScript h
  have hnone : behind? "CREATE TABLE IF NOT EXISTS " (insertScript p row) = none := by
    simp [behind?, skip?, insertScript, Provider.terminate]
  rw [hnone] at hcreate
  cases hcreate

theorem existsQuery_ne_appliedQuery (p : Provider) : existsQuery p ≠ appliedQuery p := by
  intro h
  have hprobe := probed?_existsQuery p
  have hnone : probed? (appliedQuery p) = none := by
    simp [probed?, skip?, appliedQuery, Provider.terminate, toList_quoteName]
  rw [h, hnone] at hprobe
  cases hprobe

/-! ## A store -/

/-- A store of the history table alone. -/
def keeper (p : Provider) : Executor (Option (List HistoryRow)) where
  execute sql table :=
    if (createScript p).toOption = some sql then (.ok (), some (table.getD []))
    else match row? p sql, table with
      | some row, some rows => (.ok (), some (rows ++ [row]))
      | _, table => (.error (.execution "no such table"), table)
  query sql table :=
    if sql = existsQuery p then (.ok (if table.isSome then [["1"]] else []), table)
    else
      let byId := (table.getD []).mergeSort fun a b => a.id ≤ b.id
      (.ok (byId.map fun row => [row.id, row.version]), table)

theorem toOption_createScript_ne (p : Provider) (row : HistoryRow) :
    (createScript p).toOption ≠ some (insertScript p row) := by
  have hne := createScript_ne_insertScript p row
  cases hscript : createScript p with
  | error fault => nofun
  | ok sql =>
    rw [hscript] at hne
    exact fun hsql => hne (congrArg Except.ok (Option.some.inj hsql))

theorem pairwise_byId (rows : List HistoryRow) :
    (rows.mergeSort fun a b => a.id ≤ b.id).Pairwise (·.id ≤ ·.id) := by
  have hsorted : (rows.mergeSort fun a b => a.id ≤ b.id).Pairwise
      fun a b => decide (a.id ≤ b.id) = true :=
    List.pairwise_mergeSort (by simpa using fun _ _ _ => String.le_trans)
      (by simpa using fun _ _ => String.le_total _ _) rows
  simpa using hsorted

theorem keeper_keepsHistory (p : Provider) : (keeper p).KeepsHistory p id where
  probes table := by
    refine ⟨if table.isSome then [["1"]] else [], ?_, ?_⟩
    · simp [keeper]
    · cases table <;> rfl
  creates table sql hscript := by
    have hsql : (createScript p).toOption = some sql := congrArg Except.toOption hscript
    simp [keeper, hsql]
  appends table row rows htable := by
    cases htable
    simp [keeper, toOption_createScript_ne, row?_insertScript]
  refuses table row htable := by
    cases htable
    simp [keeper, toOption_createScript_ne, row?_insertScript]
  lists table rows htable := by
    cases htable
    refine ⟨_, ?_, List.mergeSort_perm rows _, pairwise_byId rows⟩
    simp [keeper, (existsQuery_ne_appliedQuery p).symm]
  keeps sql table := by
    simp only [keeper]
    split <;> rfl

/-! ## The law -/

/-- In a run that starts without a table, calls answer as the log before them tells: the table is
created once at most and only where it is absent, exactly the rows that were recorded are listed,
by id, and only a creation or a recording executes anything. No two rows share a statement. -/
theorem runs_list_what_was_recorded {x : Executor σ} {p : Provider}
    {rows : σ → Option (List HistoryRow)} (h : x.KeepsHistory p rows) {s : σ}
    (habsent : rows s = none) (calls : List Call) :
    let log := (run p x calls s).1
    log.map Event.call = calls ∧ log.countP Event.creates ≤ 1 ∧
      (∀ before e after, log = before ++ e :: after → Follows p before e) ∧
      Tells log (rows (run p x calls s).2) ∧
      (∀ row, createScript p ≠ .ok (insertScript p row)) ∧
      Function.Injective (insertScript p) := by
  have htells : Tells [] (rows s) := habsent ▸ tells_nil
  obtain ⟨hfaithful, htells⟩ := faithful_run h calls .nil htells
  exact ⟨map_call_run p x calls s, hfaithful.countP_creates_le_one, hfaithful.follows, htells,
    createScript_ne_insertScript p, insertScript_injective p⟩

/-- A row that comes before the table is refused, a later one is kept, also by the second call
that would create the table. -/
theorem keeper_holds_what_was_recorded :
    let p : Provider := {}
    let calls : List Call := [.record ⟨"1", "1.0"⟩, .ensureCreated, .record ⟨"2", "1.0"⟩,
      .ensureCreated, .applied]
    let log := (run p (keeper p) calls none).1
    let table := (run p (keeper p) calls none).2
    (keeper p).KeepsHistory p id ∧ log.countP Event.creates ≤ 1 ∧
      (∀ before e after, log = before ++ e :: after → Follows p before e) ∧ Tells log table ∧
      table = some [⟨"2", "1.0"⟩] := by
  refine ⟨keeper_keepsHistory _, ?once, ?follows, ?tells, by decide +kernel⟩
  case once => exact (runs_list_what_was_recorded (keeper_keepsHistory _) rfl _).2.1
  case follows => exact (runs_list_what_was_recorded (keeper_keepsHistory _) rfl _).2.2.1
  case tells => exact (runs_list_what_was_recorded (keeper_keepsHistory _) rfl _).2.2.2.1

end History

end ColumnStore
