-- What a migration shows of dictionaries from outside the store: that they
-- exist, under which name, and nothing of their definitions. Two models that
-- differ in such definitions alone have the same migrations.
import ColumnStore.Proofs.Migration.Columns

namespace ColumnStore

/-! ## Models that differ in definitions -/

/-- Declarations that are the same, or that are so but for what they define two dictionaries from
outside the store to be. -/
inductive Entity.SameOutside : Entity → Entity → Prop
  | same (e : Entity) : SameOutside e e
  | external (e : Entity) {d d' : Dictionary} (h : d.source.isExternal = true)
      (h' : d'.source.isExternal = true) :
      SameOutside { e with kind := .dictionary d } { e with kind := .dictionary d' }

/-- Models of the same entities but for the definitions of dictionaries from outside the store. -/
def Model.SameOutside (m m' : Model) : Prop :=
  List.Forall₂ Entity.SameOutside m.entities m'.entities

variable {m m' : Model}

/-- Under one name both models have the same, or two dictionaries from outside the store. -/
theorem Model.SameOutside.entity? (h : m.SameOutside m') (table : String) :
    m.entity? table = m'.entity? table ∨
      ∃ (e : Entity) (d d' : Dictionary), d.source.isExternal = true ∧
        d'.source.isExternal = true ∧ m.entity? table = some { e with kind := .dictionary d } ∧
        m'.entity? table = some { e with kind := .dictionary d' } := by
  unfold Model.SameOutside at h
  unfold Model.entity?
  generalize m.entities = l, m'.entities = l' at h
  induction h with
  | nil => exact Or.inl rfl
  | @cons e e' _ _ he _ ih =>
    have htable : e'.table = e.table := by cases he <;> rfl
    rw [List.find?_cons, List.find?_cons, htable]
    split
    · cases he with
      | same => exact Or.inl rfl
      | external e hd hd' => exact Or.inr ⟨e, _, _, hd, hd', rfl, rfl⟩
    · exact ih

/-- The declared columns are the same. -/
theorem Model.SameOutside.column? (h : m.SameOutside m') (table column : String) :
    m.column? table column = m'.column? table column := by
  unfold Model.column?
  rcases h.entity? table with heq | ⟨e, d, d', _, _, hm, hm'⟩
  · rw [heq]
  · rw [hm, hm']
    rfl

namespace Operation

variable {p : Provider} {object : ObjectName}

/-! ## The order -/

/-- Of the model, the order looks at nothing but what the operations need. -/
theorem sort_congr {policy : CyclePolicy} {operations : List Operation}
    (h : ∀ o ∈ operations, o.needs m = o.needs m') :
    sort m policy operations = sort m' policy operations := by
  have hblockers : blockers m operations = blockers m' operations := by
    funext i
    unfold blockers
    cases hi : operations[i]? with
    | none => rfl
    | some o =>
      dsimp only
      rw [h o (List.mem_of_getElem? hi)]
  have hready : isReady m operations = isReady m' operations := by
    funext placed i
    rw [isReady, isReady, hblockers]
  have hlayered : ∀ steps placed waiting,
      layered m operations steps placed waiting = layered m' operations steps placed waiting := by
    intro steps
    induction steps with
    | zero => intros; rfl
    | succ steps ih =>
      intro placed waiting
      rw [layered, layered, hready, ih]
  have hplaced : placed m operations = placed m' operations := hlayered _ _ _
  have hcircular : circular m operations = circular m' operations := by
    rw [circular, circular, hplaced]
  unfold sort order
  rw [hplaced, hcircular]

/-- A dictionary from outside the store needs no table, wherever it comes from. -/
theorem needs_create_of_external {e : Entity} {d : Dictionary}
    (hentity : m.entity? object.name = some { e with kind := .dictionary d })
    (hd : d.source.isExternal = true) (columns : List Column) :
    (onTable object (.create columns)).needs m = [] := by
  simp only [needs, hentity, Option.map_some]
  cases hsource : d.source with
  | store table database => simp [hsource, DictionarySource.isExternal, DictionarySource.profile?] at hd
  | _ => rfl

theorem needs_eq_of_sameOutside (h : m.SameOutside m') (o : Operation) : o.needs m = o.needs m' := by
  cases o with
  | onTable object change =>
    cases change with
    | create columns =>
      rcases h.entity? object.name with heq | ⟨e, d, d', hd, hd', hm, hm'⟩
      · simp only [needs, heq]
      · rw [needs_create_of_external hm hd, needs_create_of_external hm' hd']
    | _ => rfl
  | _ => rfl

/-! ## The commands -/

/-- The creation of a dictionary from outside the store is a note about its name. -/
theorem create_of_external {e : Entity} {d : Dictionary}
    (hentity : m.entity? object.name = some { e with kind := .dictionary d })
    (hd : d.source.isExternal = true) (columns : List Column) :
    create p m object columns =
      .ok [.externalDictionary ⟨object.schema.or e.schema, e.table⟩] := by
  simp only [create, entityFor, hentity, pure_bind, hd, if_true]
  rfl

theorem drop_of_external {e : Entity} {d : Dictionary}
    (hentity : m.entity? object.name = some { e with kind := .dictionary d }) :
    drop m object = [.statement ⟨"DROP DICTIONARY IF EXISTS",
      { object with schema := object.schema.or e.schema }, ""⟩] := by
  simp only [drop, hentity]
  rfl

theorem tableCommands_eq_of_sameOutside (h : m.SameOutside m') (change : TableChange) :
    tableCommands p m object change = tableCommands p m' object change := by
  cases change with
  | create columns =>
    rcases h.entity? object.name with heq | ⟨e, d, d', hd, hd', hm, hm'⟩
    · simp only [tableCommands, create, entityFor, heq]
    · simp only [tableCommands, create_of_external hm hd, create_of_external hm' hd']
  | drop =>
    rcases h.entity? object.name with heq | ⟨e, d, d', _, _, hm, hm'⟩
    · simp only [tableCommands, drop, heq]
    · simp only [tableCommands, drop_of_external hm, drop_of_external hm']
  | createIndex name columns unique skip =>
    rcases h.entity? object.name with heq | ⟨e, d, d', _, _, hm, hm'⟩
    · simp only [tableCommands, createIndex, heq]
    · simp only [tableCommands, createIndex, hm, hm']
      rfl
  | insertData columns rows =>
    have hcheck : checkRow m object.name columns = checkRow m' object.name columns := by
      funext row
      simp only [checkRow, h.column?]
    simp only [tableCommands, insertRows, hcheck]
  | _ => rfl

theorem statements_eq_of_sameOutside (h : m.SameOutside m') (o : Operation) :
    o.statements p m = o.statements p m' := by
  cases o with
  | onTable object change =>
    rw [statements, statements, commands, commands, tableCommands_eq_of_sameOutside h]
  | _ => rfl

/-! ## The law -/

/-- Whatever the operations are and whether they can be carried out or not, a migration is the
same for two models that differ in the definitions of dictionaries from outside the store: in
their sources and credential profiles, keys and attributes, layouts, lifetimes and queries. -/
theorem migration_hides_external_dictionaries (h : m.SameOutside m') (p : Provider)
    (operations : List Operation) : migrate p m operations = migrate p m' operations := by
  have hstatements : statements p m = statements p m' :=
    funext fun o => statements_eq_of_sameOutside h o
  unfold migrate
  rw [sort_congr fun o _ => needs_eq_of_sameOutside h o, hstatements]

/-- One dictionary comes from a database and the other from a web address, with keys, attributes,
credentials and a layout of their own. -/
theorem other_profile_leaves_no_trace :
    let d : Dictionary := {
      keys := [{ name := "Id", type := .uint64 }]
      attributes := [{ name := "Name", type := .string }]
      source := .postgreSql ⟨"crm", some "geo", some "countries"⟩
      layout := .hashed }
    let d' : Dictionary := {
      keys := [{ name := "Code", type := .string }]
      attributes := [{ name := "Area", type := .float64, default := some (.int 0) }]
      source := .http "billing" "JSONEachRow"
      layout := .complexKeyHashed
      lifetime := ⟨0, 0⟩ }
    let m : Model := { entities := [{ table := "Countries", kind := .dictionary d }] }
    let m' : Model := { entities := [{ table := "Countries", kind := .dictionary d' }] }
    let operations :=
      [onTable ⟨none, "Countries"⟩ .drop, onTable ⟨some "geo", "Countries"⟩ (.create [])]
    m.IsValidated ∧ m'.IsValidated ∧ m.SameOutside m' ∧
      migrate {} m operations = migrate {} m' operations ∧
      migrate {} m operations = .ok ["DROP DICTIONARY IF EXISTS \"Countries\";",
        (Command.externalDictionary ⟨some "geo", "Countries"⟩).render {}] := by
  refine ⟨List.forall_mem_singleton.mpr rfl, List.forall_mem_singleton.mpr rfl, ?same, ?hides, rfl⟩
  case same => exact .cons (.external { table := "Countries" } rfl rfl) .nil
  case hides =>
    apply migration_hides_external_dictionaries
    exact .cons (.external { table := "Countries" } rfl rfl) .nil

end Operation

end ColumnStore
