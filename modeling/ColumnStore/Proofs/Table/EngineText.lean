-- An engine is read back from its expression: its kind, the columns that are
-- its arguments, and in front of them the place where replicas meet.
import ColumnStore.Proofs.Outcome
import ColumnStore.Proofs.Text.Lists
import ColumnStore.Table.Clause

namespace ColumnStore

open Text

/-! ## Arguments -/

/-- One argument of an engine. -/
inductive EngineArgument where
  /-- The meeting place of the replicas, or the replica's own name. -/
  | literal (content : String)
  | column (name : String)
  /-- Several columns that are one argument. -/
  | columns (names : List String)
  deriving DecidableEq, Repr

namespace EngineArgument

def text : EngineArgument → String
  | literal content => Text.literal content
  | column name => quoteName name
  | columns names => "(" ++ nameList names ++ ")"

/-- Reads an argument, which its first character tells the kind of. -/
def read : Reader EngineArgument := fun cs =>
  match cs.head? with
  | some '\'' => (readQuotedLiteral cs).map fun (content, rest) => (literal content, rest)
  | some '"' => (readQuotedName cs).map fun (name, rest) => (column name, rest)
  | some '(' => do
    let (names, rest) ← readNames cs.tail
    let rest ← skip? ")" rest
    return (columns names, rest)
  | _ => none

theorem isRead (a : EngineArgument) :
    IsRead read (fun a => a.text.toList) (fun rest => rest.head? ≠ some '"') a := by
  intro rest hrest
  cases a with
  | literal content =>
    have hhead : ((Text.literal content).toList ++ rest).head? = some '\'' := by
      rw [toList_literal]
      rfl
    simp only [text, read, hhead, readQuotedLiteral_literal, Option.map_some]
  | column name =>
    have hhead : ((quoteName name).toList ++ rest).head? = some '"' := by
      rw [toList_quoteName]
      rfl
    simp only [text, read, hhead, readQuotedName_quoteName name hrest, Option.map_some]
  | columns names =>
    have htext : ("(" ++ nameList names ++ ")").toList ++ rest =
        '(' :: ((nameList names).toList ++ (")".toList ++ rest)) := by simp
    have hnames := readNames_nameList names (")".toList ++ rest) (by simp) rfl
    simp only [text, read, htext, List.head?_cons, List.tail_cons, hnames, skip?_append,
      Option.bind_eq_bind, Option.bind_some, Option.pure_def]

/-- The arguments in the parentheses of a call. -/
theorem readList_arguments (arguments : List EngineArgument) :
    readList read ", " ((", ".intercalate (arguments.map text)).toList ++ [')']) =
      some (arguments, [')']) := by
  rw [String.toList_intercalate, List.map_map]
  exact readList_intercalate ", " [')'] (by decide) (fun a _ => isRead a) (by simp) (by simp) rfl
    fun _ => rfl

end EngineArgument

/-! ## Engines -/

namespace Engine

/-- What the engine is called with. -/
def callArguments : Engine → List EngineArgument
  | replacing version deleted => (version.toList ++ deleted.toList).map .column
  | summing [] => []
  | summing [c] => [.column c]
  | summing columns => [.columns columns]
  | collapsing sign => [.column sign]
  | versionedCollapsing sign version => [.column sign, .column version]
  | _ => []

/-- The engine that is called so. -/
def ofCall? (name : String) (arguments : List EngineArgument) : Option Engine :=
  match name, arguments with
  | "MergeTree", [] => some mergeTree
  | "ReplacingMergeTree", [] => some (replacing none none)
  | "ReplacingMergeTree", [.column version] => some (replacing (some version) none)
  | "ReplacingMergeTree", [.column version, .column deleted] =>
    some (replacing (some version) (some deleted))
  | "SummingMergeTree", [] => some (summing [])
  | "SummingMergeTree", [.column c] => some (summing [c])
  | "SummingMergeTree", [.columns columns] => some (summing columns)
  | "AggregatingMergeTree", [] => some aggregating
  | "CollapsingMergeTree", [.column sign] => some (collapsing sign)
  | "VersionedCollapsingMergeTree", [.column sign, .column version] =>
    some (versionedCollapsing sign version)
  | _, _ => none

/-- The engine that is named without arguments. -/
def ofName? (name : String) : Option Engine :=
  [memory, null, log, tinyLog].find? (·.name = name)

variable {e : Engine}

theorem arguments_eq_map (e : Engine) : e.arguments = e.callArguments.map EngineArgument.text := by
  cases e with
  | replacing version deleted =>
    rw [arguments, callArguments, List.map_map]
    rfl
  | summing columns =>
    cases columns with
    | nil => rfl
    | cons c columns => cases columns <;> rfl
  | _ => rfl

/-- Rows are only marked as deleted beside a version. -/
theorem version_ne_none_of_validate {version : Option String} {deleted table : String}
    (h : (replacing version (some deleted)).validate table = .ok ()) : version ≠ none := by
  rintro rfl
  simp only [validate, requireColumn, Option.forIn_some] at h
  cases hblank : isBlankText deleted <;> rw [hblank] at h <;> cases h

theorem ofCall?_callArguments {table : String} (hfamily : e.isMergeTree = true)
    (h : e.validate table = .ok ()) : ofCall? e.name e.callArguments = some e := by
  cases e with
  | replacing version deleted =>
    cases deleted with
    | none => cases version <;> rfl
    | some deleted =>
      cases version with
      | none => exact absurd rfl (version_ne_none_of_validate h)
      | some version => rfl
  | summing columns =>
    cases columns with
    | nil => rfl
    | cons c columns => cases columns <;> rfl
  | mergeTree | aggregating | collapsing | versionedCollapsing => rfl
  | memory | null | log | tinyLog => cases hfamily

theorem ofName?_name (hplain : e.isMergeTree = false) : ofName? e.name = some e := by
  cases e with
  | memory | null | log | tinyLog => decide
  | _ => cases hplain

theorem not_mem_name (e : Engine) : '(' ∉ e.name.toList := by
  cases e <;> (dsimp only [name]; decide)

theorem skip?_name (e : Engine) : skip? "Replicated" e.name.toList = none := by
  cases e <;> (dsimp only [name]; decide)

end Engine

/-! ## Engine expressions -/

/-- The engine of a call. The call of a replicated one names the replicas' meeting place first. -/
def engineOfCall? (name : List Char) (arguments : List EngineArgument) :
    Option (Option Replication × Engine) :=
  match skip? "Replicated" name, arguments with
  | none, arguments => (Engine.ofCall? (.ofList name) arguments).map (none, ·)
  | some family, .literal path :: .literal replica :: arguments =>
    (Engine.ofCall? (.ofList family) arguments).map (some ⟨path, replica⟩, ·)
  | _, _ => none

/-- Reads an engine expression. -/
def readEngine? (text : String) : Option (Option Replication × Engine) :=
  let name := text.toList.takeWhile (· ≠ '(')
  match text.toList.dropWhile (· ≠ '(') with
  | [] => (Engine.ofName? (.ofList name)).map (none, ·)
  | _ :: cs => do
    let (arguments, rest) ← readList EngineArgument.read ", " cs
    if rest = [')'] then engineOfCall? name arguments else none

section

variable {e : Engine} {arguments : List EngineArgument} {name : String}

theorem engineOfCall?_name (h : Engine.ofCall? e.name arguments = some e) :
    engineOfCall? e.name.toList arguments = some (none, e) := by
  unfold engineOfCall?
  rw [Engine.skip?_name]
  simp only [String.ofList_toList, h, Option.map_some]

theorem engineOfCall?_replicated (h : Engine.ofCall? e.name arguments = some e) (r : Replication) :
    engineOfCall? ("Replicated" ++ e.name).toList
      (.literal r.path :: .literal r.replica :: arguments) = some (some r, e) := by
  unfold engineOfCall?
  rw [String.toList_append, skip?_append]
  simp only [String.ofList_toList, h, Option.map_some]

/-- An engine without arguments is read by its name. -/
theorem readEngine?_name (hname : '(' ∉ name.toList) :
    readEngine? name = (Engine.ofName? name).map (none, ·) := by
  have hend : ∀ x, ([] : List Char).head? = some x → x = '(' := nofun
  obtain ⟨hfront, hbehind⟩ := span_ne hname hend
  rw [List.append_nil] at hfront hbehind
  unfold readEngine?
  rw [hfront, hbehind]
  simp only [String.ofList_toList]

/-- A name ends where its arguments begin. -/
theorem span_name (hname : '(' ∉ name.toList) (cs : List Char) :
    (name.toList ++ '(' :: cs).takeWhile (· ≠ '(') = name.toList ∧
      (name.toList ++ '(' :: cs).dropWhile (· ≠ '(') = '(' :: cs :=
  span_ne hname fun _ hx => (Option.some.inj hx).symm

/-- A call is read as its name and its arguments. -/
theorem readEngine?_call (hname : '(' ∉ name.toList) (arguments : List EngineArgument) :
    readEngine? (name ++ "(" ++ ", ".intercalate (arguments.map EngineArgument.text) ++ ")") =
      engineOfCall? name.toList arguments := by
  have htext : (name ++ "(" ++ ", ".intercalate (arguments.map EngineArgument.text) ++ ")").toList =
      name.toList ++
        '(' :: ((", ".intercalate (arguments.map EngineArgument.text)).toList ++ [')']) := by simp
  obtain ⟨hfront, hbehind⟩ := span_name hname
    ((", ".intercalate (arguments.map EngineArgument.text)).toList ++ [')'])
  unfold readEngine?
  rw [htext, hfront, hbehind]
  simp only [Option.bind_eq_bind, EngineArgument.readList_arguments, Option.bind_some, if_true]

end

/-- The engine expression of an entity tells its engine and its replication. -/
theorem Entity.readEngine?_engineExpression {e : Entity} (h : e.engine.validate e.table = .ok ())
    (hplain : e.engine.isMergeTree = false → e.replication = none) :
    readEngine? e.engineExpression = some (e.replication, e.engine) := by
  unfold engineExpression
  cases hfamily : e.engine.isMergeTree with
  | false =>
    rw [if_neg Bool.false_ne_true, readEngine?_name e.engine.not_mem_name,
      Engine.ofName?_name hfamily, hplain hfamily]
    rfl
  | true =>
    have hcall := Engine.ofCall?_callArguments hfamily h
    rw [if_pos rfl, Engine.arguments_eq_map]
    cases e.replication with
    | none => exact (readEngine?_call e.engine.not_mem_name _).trans (engineOfCall?_name hcall)
    | some r =>
      have hname : '(' ∉ ("Replicated" ++ e.engine.name).toList := by
        simp [e.engine.not_mem_name]
      exact (readEngine?_call hname (.literal r.path :: .literal r.replica ::
        e.engine.callArguments)).trans (engineOfCall?_replicated hcall r)

end ColumnStore
