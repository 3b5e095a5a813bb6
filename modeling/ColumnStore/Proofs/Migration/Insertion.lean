-- Rows that are inserted. Either every row fits the columns, and one statement
-- holds all of them as they were given, or there is none: the table, the list
-- of columns and the rows are read back from the statement's text.
import ColumnStore.Migration.Command
import ColumnStore.Proofs.Outcome
import ColumnStore.Proofs.Value.Reading

namespace ColumnStore

open Text ObjectName

namespace Command

/-! ## Reading the statement -/

/-- Reads a row of constants in parentheses. -/
def readRow : Reader (List Value) := fun cs => do
  let (row, rest) ← readList Value.read ", " (← skip? "(" cs)
  return (row, ← skip? ")" rest)

/-- Reads an insertion up to the end of its text. -/
def readInsertion (text : String) : Option Command := do
  let (object, cs) ← ObjectName.read? (← skip? "INSERT INTO " text.toList)
  let (columns, cs) ← readNames (← skip? " (" cs)
  let (rows, cs) ← readList readRow ",\n" (← skip? ") VALUES\n" cs)
  if cs.isEmpty then return .insert object columns rows else none

/-- A row as it is written. -/
def rowCharacters (row : List Value) : List Char :=
  '(' :: (", ".toList.intercalate (row.map Value.characters) ++ [')'])

theorem toList_rowText (row : List Value) : (rowText row).toList = rowCharacters row := by
  have hitems : row.map Value.characters = (row.map Value.literal).map String.toList := by
    rw [List.map_map]
    rfl
  rw [rowCharacters, rowText, Value.literals_eq_map, hitems]
  simp [String.toList_intercalate]

theorem isRead_readRow {row : List Value} (h : ∀ v ∈ row, v.IsBasic) :
    IsRead readRow rowCharacters (fun _ => True) row := by
  intro rest _
  have hrow := readList_intercalate ", " (')' :: rest) (by decide)
    (fun v hv => Value.isRead_read (h v hv)) (fun _ => endsWord_cons (by decide) _)
    (endsWord_cons (by decide) _) rfl fun _ => Value.readLayers_closing (Or.inr rfl) _ _
  have hopening : ∀ cs, skip? "(" ('(' :: cs) = some cs := fun _ => rfl
  have hclosing : ∀ cs, skip? ")" (')' :: cs) = some cs := fun _ => rfl
  rw [rowCharacters, List.cons_append, List.append_assoc, List.singleton_append, readRow, hopening]
  simp only [Option.bind_eq_bind, Option.bind_some, hrow, hclosing]
  rfl

/-- The statement without its terminator. -/
def insertion (object : ObjectName) (columns : List String) (rows : List (List Value)) : String :=
  "INSERT INTO " ++ object.quoted ++ " (" ++ nameList columns ++ ") VALUES\n" ++
    ",\n".intercalate (rows.map rowText)

theorem readInsertion_insertion (object : ObjectName) (columns : List String)
    {rows : List (List Value)} (h : ∀ row ∈ rows, ∀ v ∈ row, v.IsBasic) :
    readInsertion (insertion object columns rows) = some (.insert object.written columns rows) := by
  have hrows := readList_intercalate ",\n" [] (by decide)
    (fun row hrow => isRead_readRow (h row hrow)) (fun _ => trivial) trivial rfl fun _ => rfl
  have htext : (",\n".intercalate (rows.map rowText)).toList =
      ",\n".toList.intercalate (rows.map rowCharacters) := by
    rw [String.toList_intercalate, List.map_map]
    congr 1
    exact List.map_congr_left fun row _ => toList_rowText row
  rw [List.append_nil, ← htext] at hrows
  let values := ") VALUES\n".toList ++ (",\n".intercalate (rows.map rowText)).toList
  have hends : Ends (" (".toList ++ ((nameList columns).toList ++ values)) :=
    ends_cons (by decide) (by decide) _
  have hobject := read?_quoted object hends
  have hcolumns := readNames_nameList columns values (by simp [values]) rfl
  unfold readInsertion insertion
  simp only [String.toList_append, List.append_assoc, skip?_append, Option.bind_eq_bind,
    Option.bind_some]
  simp only [values] at hobject hcolumns
  simp only [hobject, hcolumns, hrows, skip?_append, Option.bind_some]
  rfl

end Command

namespace Operation

open Command

/-! ## Rows that fit -/

/-- The row has a value for each column, and each column that the model declares takes its
value. -/
structure Fits (m : Model) (table : String) (columns : List String) (row : List Value) : Prop where
  length_eq : row.length = columns.length
  taken : ∀ name v, (name, v) ∈ columns.zip row → ∀ c, m.column? table name = some c →
    v.validate c.type c.options = .ok ()

variable {p : Provider} {m : Model} {object : ObjectName} {columns : List String}
  {rows : List (List Value)}

theorem checkRow_eq_ok_iff {table : String} {row : List Value} :
    checkRow m table columns row = .ok () ↔ Fits m table columns row := by
  unfold checkRow
  split
  · rename_i hlength
    constructor
    · intro h
      cases h
    · intro h
      exact absurd h.length_eq hlength
  · rename_i hlength
    rw [Outcome.forM_eq_ok]
    constructor
    · intro h
      refine ⟨by simpa using hlength, fun name v hmem c hc => ?_⟩
      have hcell := h (name, v) hmem
      simpa only [hc] using hcell
    · rintro h ⟨name, v⟩ hmem
      dsimp only
      split
      · rename_i c hc
        exact h.taken name v hmem c hc
      · rfl

theorem statements_insertData_eq_ok_iff {texts : List String} :
    (onTable object (.insertData columns rows)).statements p m = .ok texts ↔
      (∀ row ∈ rows, Fits m object.name columns row) ∧
        texts = if rows = [] then [] else [p.terminate (insertion object columns rows)] := by
  have hall : rows.forM (checkRow m object.name columns) = .ok () ↔
      ∀ row ∈ rows, Fits m object.name columns row := by
    rw [Outcome.forM_eq_ok]
    simp only [checkRow_eq_ok_iff]
  rw [statements, Outcome.bind_pure_eq_ok]
  simp only [commands, tableCommands, insertRows, Outcome.bind_pure_eq_ok]
  rw [← hall]
  constructor
  · rintro ⟨_, ⟨_, hrows, rfl⟩, rfl⟩
    refine ⟨hrows, ?_⟩
    cases rows <;> rfl
  · rintro ⟨hrows, rfl⟩
    refine ⟨_, ⟨(), hrows, rfl⟩, ?_⟩
    cases rows <;> rfl

/-! ## The law -/

/-- Rows are inserted exactly when each of them fits, wherever it stands; one that does not leaves
no statement. No rows give none either, and others give one, from which the table, the columns and
the rows of constants are read back as they were. -/
theorem inserted_rows_are_read_back (p : Provider) (m : Model) (object : ObjectName)
    (columns : List String) (rows : List (List Value)) :
    ((∃ texts, (onTable object (.insertData columns rows)).statements p m = .ok texts) ↔
      ∀ row ∈ rows, Fits m object.name columns row) ∧
    (∀ row ∈ rows, ¬ Fits m object.name columns row →
      ∃ fault, (onTable object (.insertData columns rows)).statements p m = .error fault) ∧
    ∀ texts, (onTable object (.insertData columns rows)).statements p m = .ok texts →
      (rows = [] → texts = []) ∧
      (rows ≠ [] → (∀ row ∈ rows, ∀ v ∈ row, v.IsBasic) →
        ∃ body, texts = [p.terminate body] ∧
          readInsertion body = some (.insert object.written columns rows)) := by
  refine ⟨?_, ?_, ?_⟩
  · simp only [statements_insertData_eq_ok_iff]
    exact ⟨fun ⟨_, hfits, _⟩ => hfits, fun hfits => ⟨_, hfits, rfl⟩⟩
  · intro row hmem hrow
    refine Outcome.eq_error_of_ne_ok fun texts htexts => hrow ?_
    exact (statements_insertData_eq_ok_iff.mp htexts).1 row hmem
  · intro texts htexts
    obtain ⟨_, rfl⟩ := statements_insertData_eq_ok_iff.mp htexts
    refine ⟨fun hempty => if_pos hempty, fun hrows hbasic => ?_⟩
    exact ⟨insertion object columns rows, if_neg hrows, readInsertion_insertion object columns hbasic⟩

/-- Quotes, brackets, commas and line breaks in the values keep their places, and a second row
that is too short leaves no statement. -/
theorem tagged_row_is_read_back :
    let m : Model := { entities := [{ table := "Events", columns := [
      { name := "Id", type := .uint64 }, { name := "Tags", type := .array .string }] }] }
    let o : ObjectName := ⟨some "shop", "Events"⟩
    let row := [.int 7, .array [.string "it's], [", .array [.null, .bool true], .array []]]
    let text := "INSERT INTO \"shop\".\"Events\" (\"Id\", \"Tags\") VALUES\n" ++
      "(7, ['it\\'s], [', [NULL, true], []]),\n(7, ['it\\'s], [', [NULL, true], []]);"
    (onTable o (.insertData ["Id", "Tags"] [row, row])).statements {} m = .ok [text] ∧
      (∃ body, [text] = [body ++ ";"] ∧
        readInsertion body = some (.insert o ["Id", "Tags"] [row, row])) ∧
      ∃ fault, (onTable o (.insertData ["Id", "Tags"] [row, [.int 7]])).statements {} m =
        .error fault := by
  intro m o row text
  have hfits : Fits m "Events" ["Id", "Tags"] row := checkRow_eq_ok_iff.mp rfl
  have hshort : ¬ Fits m "Events" ["Id", "Tags"] [.int 7] := fun h => nomatch h.length_eq
  have hbasic : ∀ v ∈ row, v.IsBasic := by
    have hitems : ∀ v ∈ [Value.null, .bool true], v.IsBasic := by
      simp [Value.IsBasic.null, Value.IsBasic.bool]
    have htags : ∀ v ∈ [Value.string "it's], [", .array [.null, .bool true], .array []],
        v.IsBasic := by
      simp [Value.IsBasic.string, Value.IsBasic.array hitems, Value.IsBasic.array (List.forall_mem_nil _)]
    simp [row, Value.IsBasic.int, Value.IsBasic.array htags]
  have htext : [text] = [Provider.terminate {} (insertion o ["Id", "Tags"] [row, row])] := by
    decide +kernel
  have hstatements : (onTable o (.insertData ["Id", "Tags"] [row, row])).statements {} m =
      .ok [text] :=
    statements_insertData_eq_ok_iff.mpr ⟨by simpa using hfits, htext⟩
  refine ⟨hstatements, ?_, ?_⟩
  · exact ((inserted_rows_are_read_back {} m o _ _).2.2 _ hstatements).2 (List.cons_ne_nil _ _)
      (by simpa using hbasic)
  · exact (inserted_rows_are_read_back {} m o _ _).2.1 [.int 7] (by simp) hshort

end Operation

end ColumnStore
