-- Which columns a created table has. A validated entity has no name twice, but
-- the columns of an operation take the place of the entity's unchecked, and an
-- index alone fills the table's list of items.
import ColumnStore.Proofs.Migration.Addressing
import ColumnStore.Proofs.Migration.AllOrNothing
import ColumnStore.Proofs.Table.Clauses
import ColumnStore.Proofs.Table.Creation

namespace ColumnStore

open Text

/-! ## Validated entities -/

namespace Entity

theorem firstRepeated_eq_none {seen names : List String} (h : firstRepeated seen names = none) :
    names.Nodup ∧ ∀ n ∈ names, n ∉ seen := by
  induction names generalizing seen with
  | nil => simp
  | cons n ns ih =>
    unfold firstRepeated at h
    split at h
    · cases h
    · rename_i hn
      obtain ⟨hnodup, hfresh⟩ := ih h
      rw [List.nodup_cons, List.forall_mem_cons]
      refine ⟨⟨fun hmem => hfresh n hmem List.mem_cons_self, hnodup⟩, by simpa using hn, ?_⟩
      exact fun m hm hseen => hfresh m hm (List.mem_cons_of_mem n hseen)

theorem nodup_of_validateNames {e : Entity} (h : e.validateNames = .ok ()) :
    (e.columns.map (·.name)).Nodup := by
  cases hrepeated : firstRepeated [] (e.columns.map (·.name)) with
  | none => exact (firstRepeated_eq_none hrepeated).1
  | some name =>
    unfold validateNames at h
    rw [hrepeated] at h
    dsimp only at h
    split at h <;> cases h

theorem nodup_of_validate {e : Entity} (h : e.validate = .ok ()) :
    (e.columns.map (·.name)).Nodup :=
  nodup_of_validateNames (parts_of_validate h).2.2

end Entity

/-- Every entity was validated before it came into the model. -/
def Model.IsValidated (m : Model) : Prop := ∀ e ∈ m.entities, e.validate = .ok ()

/-! ## Columns of a statement -/

/-- The column that an item of a table declares: its name in quotes comes first. An index begins
with a word. -/
def columnName? (item : String) : Option String := (readQuotedName item.toList).map (·.1)

/-- The item of a table is the definition of a column or of an index. -/
def IsTableItem (d : TypeDefaults) (item : String) : Prop :=
  (∃ c : Column, c.definition d = .ok item) ∨ ∃ i : TableIndex, item = i.definition

/-- The statement creates a table, and the columns among its items have these names. -/
structure Statement.DeclaresColumns (s : Statement) (d : TypeDefaults) (names : List String) :
    Prop where
  verb_eq : s.verb = "CREATE TABLE IF NOT EXISTS"
  rest_eq : ∃ items clauses,
    s.rest = "\n(\n    " ++ ",\n    ".intercalate items ++ "\n)\n" ++ clauses ∧
      (∀ item ∈ items, IsTableItem d item) ∧ items.filterMap columnName? = names

theorem columnName?_definition {c : Column} {d : TypeDefaults} {text : String}
    (h : c.definition d = .ok text) : columnName? text = some c.name := by
  obtain ⟨definition, hdefine, rfl⟩ := Outcome.bind_pure_eq_ok.mp h
  obtain ⟨type, _, rfl⟩ := Outcome.bind_pure_eq_ok.mp hdefine
  unfold ColumnDefinition.render columnName?
  simp only [String.toList_append, List.append_assoc]
  rw [readQuotedName_quoteName _ (by simp)]
  rfl

theorem columnName?_index (i : TableIndex) : columnName? i.definition = none := by
  unfold columnName? TableIndex.definition
  simp only [String.toList_append, List.append_assoc]
  rfl

theorem filterMap_columnName?_definitions {columns : List Column} {d : TypeDefaults}
    {texts : List String} (h : columns.mapM (·.definition d) = .ok texts) :
    texts.filterMap columnName? = columns.map (·.name) := by
  have hall := Outcome.mapM_eq_ok.mp h
  clear h
  induction hall with
  | nil => rfl
  | cons hc _ ih => rw [List.filterMap_cons, columnName?_definition hc, ih, List.map_cons]

theorem isTableItem_definitions {columns : List Column} {d : TypeDefaults} {texts : List String}
    (h : columns.mapM (·.definition d) = .ok texts) : ∀ item ∈ texts, IsTableItem d item := by
  have hall := Outcome.mapM_eq_ok.mp h
  clear h
  induction hall with
  | nil => simp
  | cons hc _ ih =>
    rw [List.forall_mem_cons]
    exact ⟨Or.inl ⟨_, hc⟩, ih⟩

/-- A created table has the columns of its entity. -/
theorem Entity.declaresColumns_createTable {e : Entity} {d : TypeDefaults} {s : Statement}
    (h : e.createTable d = .ok s) : s.DeclaresColumns d (e.columns.map (·.name)) := by
  unfold createTable at h
  obtain ⟨definitions, hdefinitions, h⟩ := Outcome.bind_eq_ok.mp h
  dsimp only at h
  split at h
  · cases h
  · cases h
    refine ⟨rfl, definitions ++ e.indexes.map TableIndex.definition, e.clauseText, rfl, ?_, ?_⟩
    · intro item hitem
      rcases List.mem_append.mp hitem with hitem | hitem
      · exact isTableItem_definitions hdefinitions item hitem
      · obtain ⟨i, _, rfl⟩ := List.mem_map.mp hitem
        exact Or.inr ⟨i, rfl⟩
    · have hindexes : (e.indexes.map TableIndex.definition).filterMap columnName? = [] := by
        simp [columnName?_index]
      rw [List.filterMap_append, filterMap_columnName?_definitions hdefinitions, hindexes,
        List.append_nil]

namespace Operation

open Command

variable {p : Provider} {m : Model} {object : ObjectName} {columns : List Column}

/-! ## Columns of an operation -/

/-- The columns of the table that an operation creates: its own ones, or else the entity's. -/
def created (m : Model) (object : ObjectName) (columns : List Column) : List Column :=
  if columns.isEmpty then ((m.entity? object.name).map (·.columns)).getD [] else columns

theorem columns_entityFor {e : Entity} (h : entityFor m object columns = .ok e) :
    e.columns = created m object columns := by
  unfold entityFor at h
  dsimp only at h
  unfold created
  split at h
  · rename_i known hknown
    cases h
    rw [hknown]
    rfl
  · split at h
    · cases h
    · rename_i hcolumns
      obtain ⟨_, _, h⟩ := Outcome.bind_eq_ok.mp h
      cases h
      simp [hcolumns]

/-- Of the statements of a creation, one that creates a table declares the operation's columns. -/
theorem declaresColumns_create {commands : List Command}
    (h : create p m object columns = .ok commands) {s : Statement} (hs : .statement s ∈ commands)
    (hverb : s.verb = "CREATE TABLE IF NOT EXISTS") :
    s.DeclaresColumns p.types ((created m object columns).map (·.name)) := by
  unfold create at h
  obtain ⟨e, he, h⟩ := Outcome.bind_eq_ok.mp h
  rw [← columns_entityFor he]
  split at h
  · cases h
    cases hs
  · rename_i v _
    cases h
    obtain rfl := statement.inj (List.mem_singleton.mp hs)
    rw [(e.creates_createView v).verb_eq] at hverb
    exact absurd hverb (by decide)
  · split at h
    · cases h
      cases List.mem_singleton.mp hs
    · obtain ⟨_, _, h⟩ := Outcome.bind_eq_ok.mp h
      obtain ⟨dictionary, hdictionary, rfl⟩ := Outcome.bind_pure_eq_ok.mp h
      obtain rfl := statement.inj (List.mem_singleton.mp hs)
      rw [(Dictionary.creates_createFromStore hdictionary).verb_eq] at hverb
      exact absurd hverb (by decide)
  · obtain ⟨table, htable, rfl⟩ := Outcome.bind_pure_eq_ok.mp h
    rcases List.mem_cons.mp hs with hs | hs
    · obtain rfl := statement.inj hs
      exact Entity.declaresColumns_createTable htable
    · obtain ⟨q, _, hq⟩ := List.mem_map.mp hs
      obtain rfl := statement.inj hq
      exact absurd hverb (by simp)

/-- Of all operations only the creation of a table has a statement that creates one. -/
theorem exists_create_of_verb {o : Operation} {commands : List Command}
    (h : o.commands p m = .ok commands) {s : Statement} (hs : .statement s ∈ commands)
    (hverb : s.verb = "CREATE TABLE IF NOT EXISTS") :
    ∃ object columns, o = onTable object (.create columns) := by
  have hother : ∀ verb object rest, verb ≠ "CREATE TABLE IF NOT EXISTS" →
      .statement s ∉ [statement ⟨verb, object, rest⟩] := by
    intro verb object rest hne hmem
    obtain rfl := statement.inj (List.mem_singleton.mp hmem)
    exact hne hverb
  cases o with
  | ensureSchema name =>
    cases h
    exact absurd hs (hother _ _ _ (by decide))
  | dropSchema name =>
    cases h
    exact absurd hs (hother _ _ _ (by decide))
  | sql text =>
    cases h
    cases List.mem_singleton.mp hs
  | onTable object change =>
    cases commandsOf_tableCommands h with
    | create => exact ⟨object, _, rfl⟩
    | drop =>
      unfold drop at hs
      simp only [Option.mem_toList, Option.map_eq_some_iff, statement.injEq] at hs
      obtain ⟨keyword, hkeyword, rfl⟩ := hs
      split at hkeyword <;> cases hkeyword
      all_goals exact absurd hverb (by simp)
    | alter _ action => exact absurd hs (hother _ _ _ (by decide))
    | rename | insert => cases List.mem_singleton.mp hs
    | nothing => cases hs

theorem nodup_created_nil (hm : m.IsValidated) :
    ((created m object []).map (·.name)).Nodup := by
  cases hentity : m.entity? object.name with
  | none => simp [created, hentity]
  | some e =>
    have he : e ∈ m.entities := List.mem_of_find?_eq_some hentity
    simpa [created, hentity] using Entity.nodup_of_validate (hm e he)

/-! ## The law -/

/-- A migration consists of the commands of its operations. A table that one of them creates has
a column, and no two of one name, exactly when the operation's own columns have distinct names, or
where it has none the entity has some. -/
theorem created_table_has_distinct_columns_iff (hm : m.IsValidated) {operations : List Operation}
    {texts : List String} (h : migrate p m operations = .ok texts) :
    (∀ text, text ∈ texts ↔ ∃ o ∈ operations, ∃ commands, o.commands p m = .ok commands ∧
      ∃ c ∈ commands, text = c.render p) ∧
    ∀ o ∈ operations, ∀ commands, o.commands p m = .ok commands →
      ∀ s, .statement s ∈ commands → s.verb = "CREATE TABLE IF NOT EXISTS" →
        ∃ object columns, o = onTable object (.create columns) ∧
          ∃ names, names = (created m object columns).map (·.name) ∧
            s.DeclaresColumns p.types names ∧
            (names ≠ [] ∧ names.Nodup ↔
              (columns ≠ [] → (columns.map (·.name)).Nodup) ∧
                (columns = [] → ∃ e, m.entity? object.name = some e ∧ e.columns ≠ [])) := by
  refine ⟨fun text => ?_, fun o _ commands hcommands s hs hverb => ?_⟩
  · rw [mem_migrate h]
    constructor
    · rintro ⟨o, ho, list, hlist, htext⟩
      obtain ⟨commands, hcommands, rfl⟩ := Outcome.bind_pure_eq_ok.mp hlist
      obtain ⟨c, hc, rfl⟩ := List.mem_map.mp htext
      exact ⟨o, ho, commands, hcommands, c, hc, rfl⟩
    · rintro ⟨o, ho, commands, hcommands, c, hc, rfl⟩
      have hlist : o.statements p m = .ok (commands.map (Command.render p)) :=
        Outcome.bind_pure_eq_ok.mpr ⟨commands, hcommands, rfl⟩
      exact ⟨o, ho, _, hlist, List.mem_map_of_mem hc⟩
  · obtain ⟨object, columns, rfl⟩ := exists_create_of_verb hcommands hs hverb
    refine ⟨object, columns, rfl, _, rfl, declaresColumns_create hcommands hs hverb, ?_⟩
    by_cases hcolumns : columns = []
    · subst hcolumns
      have hnodup : ((created m object []).map (·.name)).Nodup := nodup_created_nil hm
      cases hentity : m.entity? object.name <;> simp_all [created]
    · simp [created, hcolumns]

/-- A table that is registered with two columns is created with them. -/
theorem registered_columns_are_distinct :
    let e : Entity := { table := "Events", orderBy := ["Id"], columns :=
      [{ name := "Id", type := .uint32 }, { name := "Note", type := .string }] }
    let s : Statement := ⟨"CREATE TABLE IF NOT EXISTS", ⟨none, "Events"⟩,
      "\n(\n    \"Id\" UInt32,\n    \"Note\" String\n)\nENGINE = MergeTree()\nORDER BY (\"Id\")"⟩
    Model.IsValidated { entities := [e] } ∧
      migrate {} { entities := [e] } [onTable ⟨none, "Events"⟩ (.create [])] =
        .ok [(statement s).render {}] ∧
      ∃ names, s.DeclaresColumns {} names ∧ names ≠ [] ∧ names.Nodup := by
  intro e s
  have hm : Model.IsValidated { entities := [e] } := by
    intro known hknown
    rw [List.mem_singleton.mp hknown]
    simp only [e]
    rfl
  have hmigrate : migrate {} { entities := [e] } [onTable ⟨none, "Events"⟩ (.create [])] =
      .ok [(statement s).render {}] := rfl
  have hcommands : (onTable ⟨none, "Events"⟩ (.create [])).commands {} { entities := [e] } =
      .ok [statement s] := rfl
  obtain ⟨_, hlaw⟩ := created_table_has_distinct_columns_iff hm hmigrate
  obtain ⟨object, columns, hcreate, names, _, hdeclares, hiff⟩ :=
    hlaw _ (List.mem_singleton_self _) _ hcommands s (List.mem_singleton_self _) rfl
  cases hcreate
  exact ⟨hm, hmigrate, names, hdeclares, hiff.mpr ⟨nofun, fun _ => ⟨e, rfl, nofun⟩⟩⟩

/-- Columns that come with the operation are taken as they are, and an index makes up for columns
that are missing. -/
theorem repeated_or_missing_columns_are_created :
    let columns : List Column := [{ name := "A", type := .int32 }, { name := "A", type := .string }]
    let repeated : Statement := ⟨"CREATE TABLE IF NOT EXISTS", ⟨none, "T"⟩,
      "\n(\n    \"A\" Int32,\n    \"A\" String\n)\nENGINE = MergeTree()\nORDER BY tuple()"⟩
    let e : Entity := { table := "Events", indexes := [⟨"ByDay", ["Day"], {}⟩] }
    let missing : Statement := ⟨"CREATE TABLE IF NOT EXISTS", ⟨none, "Events"⟩,
      "\n(\n    INDEX \"ByDay\" (\"Day\") TYPE minmax GRANULARITY 3\n)\n" ++
        "ENGINE = MergeTree()\nORDER BY tuple()"⟩
    (migrate {} {} [onTable ⟨none, "T"⟩ (.create columns)] =
        .ok [(statement repeated).render {}] ∧
      repeated.DeclaresColumns {} ["A", "A"] ∧ ¬ ["A", "A"].Nodup) ∧
    (e.validate = .ok () ∧
      migrate {} { entities := [e] } [onTable ⟨none, "Events"⟩ (.create [])] =
        .ok [(statement missing).render {}] ∧
      missing.DeclaresColumns {} []) := by
  intro columns repeated e missing
  have hrepeated : Entity.createTable { table := "T", columns := columns } {} = .ok repeated := rfl
  have hmissing : e.createTable {} = .ok missing := rfl
  have hvalid : e.validate = .ok () := by
    simp only [e]
    rfl
  exact ⟨⟨rfl, Entity.declaresColumns_createTable hrepeated, by decide⟩,
    hvalid, rfl, Entity.declaresColumns_createTable hmissing⟩

end Operation

end ColumnStore
