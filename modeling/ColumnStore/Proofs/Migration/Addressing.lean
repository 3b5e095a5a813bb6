-- Which object the statements of an operation are about. Creations and drops
-- fall back to the schema that the model has for the table; every other change
-- takes its own schema or none.
import ColumnStore.Migration.Command
import ColumnStore.Proofs.Table.Creation

namespace ColumnStore

open ObjectName

/-- The statement's text, up to its terminator, names the object first. -/
def Addresses (p : Provider) (text : String) (o : ObjectName) : Prop :=
  ∃ body, text = p.terminate body ∧ first? body = some o.written

theorem addresses_terminate {p : Provider} {body : String} {o : ObjectName} :
    Addresses p (p.terminate body) o ↔ first? body = some o.written := by
  constructor
  · rintro ⟨body', heq, hfirst⟩
    rwa [(String.append_left_inj p.terminator).mp heq]
  · intro h
    exact ⟨body, rfl, h⟩

/-- A text addresses one object, up to an empty schema. -/
theorem Addresses.written_eq {p : Provider} {text : String} {o o' : ObjectName}
    (h : Addresses p text o) (h' : Addresses p text o') : o.written = o'.written := by
  obtain ⟨body, rfl, hfirst⟩ := h
  have hfirst' := addresses_terminate.mp h'
  exact Option.some.inj (hfirst.symm.trans hfirst')

/-! ## Commands -/

namespace Command

/-- What has to be known of a command for its text to name the object first. -/
def IsAbout (c : Command) (o : ObjectName) : Prop :=
  match c with
  | statement s => s.object = o ∧ '"' ∉ s.verb.toList ∧ Ends s.rest.toList
  | rename old _ => old = o
  | insert object _ _ => object = o
  | raw _ => False
  | externalDictionary object => object = o

theorem IsAbout.addresses {c : Command} {o : ObjectName} (h : c.IsAbout o) (p : Provider) :
    Addresses p (c.render p) o := by
  cases c with
  | statement s =>
    obtain ⟨rfl, hverb, hrest⟩ := h
    rw [render, addresses_terminate]
    exact Statement.first?_render hverb hrest p.cluster
  | rename old new =>
    cases h
    rw [render, addresses_terminate]
    simp only [String.append_assoc]
    exact first?_eq_written (by decide) _ (by simp [Ends])
  | insert object columns rows =>
    cases h
    rw [render, addresses_terminate]
    simp only [String.append_assoc]
    exact first?_eq_written (by decide) _ (by simp [Ends])
  | raw text => exact h.elim
  | externalDictionary object =>
    cases h
    rw [render, addresses_terminate]
    simp only [String.append_assoc]
    exact first?_eq_written (by decide) _ (by simp [Ends])

theorem isAbout_of_creates {s : Statement} {verb : String} {o : ObjectName}
    (h : s.Creates verb o) (hverb : '"' ∉ verb.toList) : (statement s).IsAbout o := by
  refine ⟨h.object_eq, h.verb_eq ▸ hverb, ?_⟩
  simpa using h.ends ""

end Command

namespace Operation

open Command

/-! ## Operations -/

/-- Whether the change looks its schema up in the model. -/
def consultsModel : TableChange → Bool
  | .create _ | .drop => true
  | _ => false

/-- The object that the change of a table is carried out on. -/
def target (m : Model) (object : ObjectName) (change : TableChange) : ObjectName :=
  if consultsModel change then
    { object with schema := object.schema.or ((m.entity? object.name).bind (·.schema)) }
  else object

variable {p : Provider} {m : Model} {object : ObjectName} {change : TableChange}
  {commands : List Command}

theorem isAbout_alter (object : ObjectName) (action : String) :
    (alter object action).IsAbout object := by
  refine ⟨rfl, ?_, by simp [Ends]⟩
  show '"' ∉ "ALTER TABLE".toList
  decide

/-- An entity that is created goes by the name of the operation's table, in the operation's
schema or else in its own. -/
theorem object_entityFor {columns : List Column} {e : Entity}
    (h : entityFor m object columns = .ok e) : e.object = target m object (.create columns) := by
  unfold entityFor at h
  dsimp only at h
  split at h
  · rename_i known hknown
    cases h
    have hname : known.table = object.name := by simpa using List.find?_some hknown
    simp [Entity.object, target, consultsModel, hknown, hname]
  · rename_i hknown
    split at h
    · cases h
    · obtain ⟨_, _, h⟩ := Outcome.bind_eq_ok.mp h
      cases h
      simp [Entity.object, target, consultsModel, hknown]

theorem isAbout_create {columns : List Column} (h : create p m object columns = .ok commands) :
    ∀ c ∈ commands, c.IsAbout (target m object (.create columns)) := by
  unfold create at h
  obtain ⟨e, he, h⟩ := Outcome.bind_eq_ok.mp h
  rw [← object_entityFor he]
  split at h
  · cases h
    simp
  · cases h
    simp [isAbout_of_creates (e.creates_createView _) (by decide)]
  · split at h
    · cases h
      simp [IsAbout]
    · obtain ⟨_, _, h⟩ := Outcome.bind_eq_ok.mp h
      obtain ⟨s, hs, rfl⟩ := Outcome.bind_pure_eq_ok.mp h
      simp [isAbout_of_creates (Dictionary.creates_createFromStore hs) (by decide)]
  · obtain ⟨table, htable, rfl⟩ := Outcome.bind_pure_eq_ok.mp h
    intro c hc
    rcases List.mem_cons.mp hc with rfl | hc
    · exact isAbout_of_creates (Entity.creates_createTable htable) (by decide)
    · obtain ⟨q, _, rfl⟩ := List.mem_map.mp hc
      exact isAbout_alter _ _

theorem isAbout_drop (m : Model) (object : ObjectName) :
    ∀ c ∈ drop m object, c.IsAbout (target m object .drop) := by
  intro c hc
  unfold drop at hc
  simp only [Option.mem_toList, Option.map_eq_some_iff] at hc
  obtain ⟨k, hk, rfl⟩ := hc
  refine ⟨rfl, ?_, ends_nil⟩
  split at hk
  · cases hk
  all_goals
    cases hk
    simp

/-- The commands that a change of a table stands for. One that consults no model is at most a single
command, an alteration in most cases. -/
inductive CommandsOf (p : Provider) (m : Model) (object : ObjectName) :
    TableChange → List Command → Prop
  | create {columns : List Column} {commands : List Command}
      (h : create p m object columns = .ok commands) :
      CommandsOf p m object (.create columns) commands
  | drop : CommandsOf p m object .drop (drop m object)
  | alter {change : TableChange} (h : consultsModel change = false) (action : String) :
      CommandsOf p m object change [alter object action]
  | rename {change : TableChange} (h : consultsModel change = false) (new : ObjectName) :
      CommandsOf p m object change [.rename object new]
  | insert {change : TableChange} (h : consultsModel change = false) (columns : List String)
      (rows : List (List Value)) : CommandsOf p m object change [.insert object columns rows]
  | nothing {change : TableChange} (h : consultsModel change = false) :
      CommandsOf p m object change []

theorem commandsOf_tableCommands (h : tableCommands p m object change = .ok commands) :
    CommandsOf p m object change commands := by
  cases change with
  | create columns => exact .create h
  | drop =>
    cases h
    exact .drop
  | addColumn c annotations | alterColumn c annotations =>
    obtain ⟨_, _, h⟩ := Outcome.bind_eq_ok.mp h
    obtain ⟨definition, _, rfl⟩ := Outcome.bind_pure_eq_ok.mp h
    exact .alter rfl _
  | createIndex name columns unique skip =>
    simp only [tableCommands] at h
    split at h
    · cases h
    · unfold createIndex at h
      extract_lets _ _ declared at h
      split at h
      · cases h
      · cases h
        exact .alter rfl _
  | rename name schema =>
    cases h
    exact .rename rfl _
  | insertData columns rows =>
    obtain ⟨_, _, rfl⟩ := Outcome.bind_pure_eq_ok.mp h
    split
    · exact .nothing rfl
    · exact .insert rfl columns rows
  | _ =>
    -- What is refused has no commands, and what is left alters the table.
    cases h
    try exact .alter rfl _

theorem isAbout_tableCommands (h : tableCommands p m object change = .ok commands) :
    ∀ c ∈ commands, c.IsAbout (target m object change) := by
  have htarget : consultsModel change = false → target m object change = object := by
    intro hchange
    rw [target, hchange]
    rfl
  cases commandsOf_tableCommands h with
  | create h => exact isAbout_create h
  | drop => exact isAbout_drop m object
  | alter hchange action =>
    rw [htarget hchange]
    simpa using isAbout_alter object action
  | rename hchange new =>
    rw [htarget hchange]
    simp [IsAbout]
  | insert hchange columns rows =>
    rw [htarget hchange]
    simp [IsAbout]
  | nothing => simp

/-! ## The law -/

theorem statements_address {texts : List String}
    (h : (onTable object change).statements p m = .ok texts) :
    ∀ text ∈ texts, Addresses p text (target m object change) := by
  obtain ⟨commands, hcommands, rfl⟩ := Outcome.bind_pure_eq_ok.mp h
  intro text htext
  obtain ⟨c, hc, rfl⟩ := List.mem_map.mp htext
  exact (isAbout_tableCommands hcommands c hc).addresses p

/-- The schema that is written without the model's is the one with it. -/
theorem written_eq_iff (schema known : Option String) (name : String) :
    (⟨schema, name⟩ : ObjectName).written = (⟨schema.or known, name⟩ : ObjectName).written ↔
      schema.isSome ∨ known.getD "" = "" := by
  cases schema with
  | some s => simp
  | none =>
    cases known with
    | none => simp
    | some s => by_cases hs : s = "" <;> simp [written, Option.filter, hs]

/-- The statements of a change of a registered table address it in the operation's schema, or
else in the model's, exactly when the change looks the schema up, the operation gives one, or
the model has none. -/
theorem registered_table_is_addressed_iff {texts : List String} {e : Entity}
    (hentity : m.entity? object.name = some e)
    (h : (onTable object change).statements p m = .ok texts) :
    (∀ text ∈ texts, Addresses p text ⟨object.schema.or e.schema, object.name⟩) ↔
      texts = [] ∨ consultsModel change ∨ object.schema.isSome ∨ e.schema.getD "" = "" := by
  have haddress := statements_address h
  unfold target at haddress
  cases hconsults : consultsModel change with
  | true =>
    rw [hconsults, if_pos rfl, hentity] at haddress
    simpa using haddress
  | false =>
    rw [hconsults, if_neg (by decide)] at haddress
    rw [← written_eq_iff object.schema e.schema object.name]
    constructor
    · intro hwanted
      cases texts with
      | nil => exact Or.inl rfl
      | cons text texts =>
        have htext : text ∈ text :: texts := List.mem_cons_self
        exact Or.inr (Or.inr ((haddress text htext).written_eq (hwanted text htext)))
    · rintro (rfl | hfalse | hwritten) text htext
      · cases htext
      · cases hfalse
      · obtain ⟨body, rfl, hfirst⟩ := haddress text htext
        exact ⟨body, rfl, hfirst.trans (congrArg some hwritten)⟩

/-- A column of a table in the model's schema is dropped in it where the operation names it. -/
theorem named_schema_is_addressed :
    let m : Model := { entities := [{ table := "Events", schema := some "shop" }] }
    let o : ObjectName := ⟨some "shop", "Events"⟩
    (onTable o (.dropColumn "Note")).statements {} m =
        .ok ["ALTER TABLE \"shop\".\"Events\" DROP COLUMN IF EXISTS \"Note\";"] ∧
      ∀ text ∈ ["ALTER TABLE \"shop\".\"Events\" DROP COLUMN IF EXISTS \"Note\";"],
        Addresses {} text o := by
  intro m o
  have hstatements : (onTable ⟨some "shop", "Events"⟩ (.dropColumn "Note")).statements {} m =
      .ok ["ALTER TABLE \"shop\".\"Events\" DROP COLUMN IF EXISTS \"Note\";"] := by rfl
  have hlaw := registered_table_is_addressed_iff rfl hstatements
  exact ⟨hstatements, hlaw.mpr (Or.inr (Or.inr (Or.inl rfl)))⟩

/-- Without a schema of its own a drop of the table finds it, and a drop of its column does
not. -/
theorem unnamed_schema_is_missed :
    let m : Model := { entities := [{ table := "Events", schema := some "shop" }] }
    let o : ObjectName := ⟨none, "Events"⟩
    (onTable o .drop).statements {} m = .ok ["DROP TABLE IF EXISTS \"shop\".\"Events\";"] ∧
      (onTable o (.dropColumn "Note")).statements {} m =
        .ok ["ALTER TABLE \"Events\" DROP COLUMN IF EXISTS \"Note\";"] ∧
      ¬ Addresses {} "ALTER TABLE \"Events\" DROP COLUMN IF EXISTS \"Note\";"
        ⟨some "shop", "Events"⟩ := by
  refine ⟨rfl, rfl, ?_⟩
  intro haddress
  have hbare : Addresses {} "ALTER TABLE \"Events\" DROP COLUMN IF EXISTS \"Note\";"
      ⟨none, "Events"⟩ := ⟨"ALTER TABLE \"Events\" DROP COLUMN IF EXISTS \"Note\"", rfl, by decide⟩
  have hwritten := haddress.written_eq hbare
  revert hwritten
  decide

end Operation

end ColumnStore
