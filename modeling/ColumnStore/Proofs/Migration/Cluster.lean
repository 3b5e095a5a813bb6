-- What a cluster changes in a migration. The commands stay the same ones in
-- the same order, and so do the refusals; a statement that every node has to
-- run names the cluster, directly behind the name of its object.
import ColumnStore.Proofs.Migration.Addressing
import ColumnStore.Proofs.Migration.AllOrNothing

namespace ColumnStore

open ObjectName

/-- The same provider on a cluster, or without one. -/
def Provider.withCluster (p : Provider) (cluster : Option String) : Provider :=
  { p with cluster := cluster }

namespace Operation

open Command

variable {p : Provider} {m : Model} {object : ObjectName} {change : TableChange}
  {commands : List Command} {cluster : String}

/-! ## Where the cluster is named -/

/-- Whether the model has a dictionary from outside the store under the name. -/
def isExternalDictionary (m : Model) (table : String) : Bool :=
  match (m.entity? table).map Entity.kind with
  | some (.dictionary d) => d.source.isExternal
  | _ => false

/-- The object behind whose name the statements of an operation name the cluster. Rows, raw SQL
and the notes about dictionaries from outside the store name none. -/
def sharedObject? (m : Model) : Operation → Option ObjectName
  | ensureSchema name | dropSchema name => some ⟨none, name⟩
  | sql _ | onTable _ (.insertData _ _) => none
  | onTable object (.create columns) =>
    if isExternalDictionary m object.name then none else some (target m object (.create columns))
  | onTable object (.rename name schema) => some ⟨schema.or object.schema, name⟩
  | onTable object change => some (target m object change)

/-- What stands in front of that object: the first name in a statement, but the second one where a
table gets a new name. -/
def Introduces : Operation → String → Prop
  | onTable object (.rename _ _), words => words = "RENAME TABLE " ++ object.quoted ++ " TO "
  | _, words => '"' ∉ words.toList

/-- Two texts of an operation, the second one on the cluster: it names the cluster once, behind the
object, and is otherwise the first one. -/
def NamesCluster (p : Provider) (m : Model) (cluster : String) (o : Operation)
    (plain clustered : String) : Prop :=
  match o.sharedObject? m with
  | none => clustered = plain
  | some shared => ∃ words rest, o.Introduces words ∧ Ends rest.toList ∧
      plain = p.terminate (words ++ shared.quoted ++ rest) ∧
      clustered = p.terminate
        (words ++ shared.quoted ++ " ON CLUSTER " ++ Text.quoteName cluster ++ rest)

/-! ## The commands do not depend on the cluster -/

theorem commands_withCluster (p : Provider) (m : Model) (c : Option String) (o : Operation) :
    o.commands (p.withCluster c) m = o.commands p m := by
  cases o with
  | onTable object change => cases change <;> rfl
  | _ => rfl

theorem statements_withCluster (c : Option String) {o : Operation}
    (h : o.commands p m = .ok commands) :
    o.statements (p.withCluster c) m = .ok (commands.map (render (p.withCluster c))) := by
  rw [statements, commands_withCluster, h]
  rfl

/-- A migration is the text of its commands, and the cluster comes in with the text. -/
theorem migrate_withCluster (p : Provider) (m : Model) (c : Option String)
    (operations : List Operation) :
    migrate (p.withCluster c) m operations = do
      let lists ← sort m p.cyclePolicy operations >>= List.mapM (Operation.commands p m)
      return (lists.flatten.map (render (p.withCluster c))) := by
  have hcommands : Operation.commands (p.withCluster c) m = Operation.commands p m :=
    funext fun o => commands_withCluster p m c o
  have hstatements : ∀ sorted : List Operation, sorted.mapM (statements (p.withCluster c) m) =
      sorted.mapM (Operation.commands p m) >>= fun lists =>
        pure (lists.map (List.map (render (p.withCluster c)))) := by
    intro sorted
    rw [← hcommands]
    exact Outcome.mapM_bind_pure _ _ sorted
  unfold migrate
  simp only [hstatements, bind_assoc, pure_bind, List.map_flatten]
  rfl

/-! ## The kinds of commands -/

theorem kind_entityFor {columns : List Column} {e : Entity}
    (h : entityFor m object columns = .ok e) :
    e.kind = ((m.entity? object.name).map Entity.kind).getD .table := by
  unfold entityFor at h
  dsimp only at h
  split at h
  · rename_i known hknown
    cases h
    rw [hknown]
    rfl
  · rename_i hknown
    split at h
    · cases h
    · obtain ⟨_, _, h⟩ := Outcome.bind_eq_ok.mp h
      cases h
      rw [hknown]
      rfl

theorem isExternalDictionary_eq {columns : List Column} {e : Entity}
    (h : entityFor m object columns = .ok e) : isExternalDictionary m object.name =
      match e.kind with
      | .dictionary d => d.source.isExternal
      | _ => false := by
  rw [isExternalDictionary, kind_entityFor h]
  cases (m.entity? object.name).map Entity.kind with
  | none => rfl
  | some kind => cases kind <;> rfl

/-- A creation is a note for a dictionary from outside the store, and else has statements only. -/
theorem shape_create {columns : List Column} (h : create p m object columns = .ok commands)
    {c : Command} (hc : c ∈ commands) :
    if isExternalDictionary m object.name then ∃ o, c = .externalDictionary o
    else ∃ s, c = .statement s := by
  unfold create at h
  obtain ⟨e, he, h⟩ := Outcome.bind_eq_ok.mp h
  rw [isExternalDictionary_eq he]
  split at h
  · cases h
    cases hc
  · rename_i v hkind
    cases h
    simp only [hkind]
    exact ⟨_, List.mem_singleton.mp hc⟩
  · rename_i d hkind
    simp only [hkind]
    split at h
    · rename_i hexternal
      cases h
      rw [if_pos hexternal]
      exact ⟨_, List.mem_singleton.mp hc⟩
    · rename_i hexternal
      rw [if_neg hexternal]
      obtain ⟨_, _, h⟩ := Outcome.bind_eq_ok.mp h
      obtain ⟨s, _, rfl⟩ := Outcome.bind_pure_eq_ok.mp h
      exact ⟨s, List.mem_singleton.mp hc⟩
  · rename_i hkind
    simp only [hkind]
    obtain ⟨table, _, rfl⟩ := Outcome.bind_pure_eq_ok.mp h
    rcases List.mem_cons.mp hc with rfl | hc
    · exact ⟨table, rfl⟩
    · obtain ⟨q, _, rfl⟩ := List.mem_map.mp hc
      exact ⟨_, rfl⟩

theorem shape_tableCommands (h : tableCommands p m object change = .ok commands) {c : Command}
    (hc : c ∈ commands) :
    match change with
    | .create _ =>
      if isExternalDictionary m object.name then ∃ o, c = .externalDictionary o
      else ∃ s, c = .statement s
    | .rename name schema => c = .rename object ⟨schema.or object.schema, name⟩
    | .insertData columns rows => c = .insert object columns rows
    | _ => ∃ s, c = .statement s := by
  cases change with
  | create columns => exact shape_create h hc
  | drop =>
    cases h
    simp only [drop, Option.mem_toList, Option.map_eq_some_iff] at hc
    obtain ⟨keyword, _, rfl⟩ := hc
    exact ⟨_, rfl⟩
  | addColumn column annotations | alterColumn column annotations =>
    obtain ⟨_, _, h⟩ := Outcome.bind_eq_ok.mp h
    obtain ⟨definition, _, rfl⟩ := Outcome.bind_pure_eq_ok.mp h
    exact ⟨_, List.mem_singleton.mp hc⟩
  | createIndex name columns unique skip =>
    simp only [tableCommands] at h
    split at h
    · cases h
    · unfold createIndex at h
      extract_lets _ _ declared at h
      split at h
      · cases h
      · cases h
        exact ⟨_, List.mem_singleton.mp hc⟩
  | insertData columns rows =>
    obtain ⟨_, _, rfl⟩ := Outcome.bind_pure_eq_ok.mp h
    split at hc
    · cases hc
    · exact List.mem_singleton.mp hc
  | rename name schema =>
    cases h
    exact List.mem_singleton.mp hc
  | _ =>
    -- What is refused has no commands, and what is left is one statement.
    cases h
    try exact ⟨_, List.mem_singleton.mp hc⟩

/-! ## Their texts -/

/-- A statement about an operation's object names the cluster behind it. -/
theorem namesCluster_statement {o : Operation} {s : Statement} {shared : ObjectName}
    (hshared : o.sharedObject? m = some shared)
    (hwords : ∀ words : String, '"' ∉ words.toList → o.Introduces words)
    (habout : (statement s).IsAbout shared) :
    NamesCluster p m cluster o ((statement s).render (p.withCluster none))
      ((statement s).render (p.withCluster (some cluster))) := by
  obtain ⟨rfl, hverb, hends⟩ := habout
  unfold NamesCluster
  rw [hshared]
  refine ⟨s.verb ++ " ", s.rest, hwords _ (by simpa using hverb), hends, ?_, ?_⟩
  all_goals
    simp [render, Provider.withCluster, Provider.terminate, Statement.render, onCluster,
      String.append_assoc]

theorem namesCluster_of_mem {o : Operation} (h : o.commands p m = .ok commands) {c : Command}
    (hc : c ∈ commands) :
    NamesCluster p m cluster o (c.render (p.withCluster none))
      (c.render (p.withCluster (some cluster))) := by
  cases o with
  | ensureSchema name | dropSchema name =>
    cases h
    rw [List.mem_singleton.mp hc]
    exact namesCluster_statement rfl (fun _ hwords => hwords) ⟨rfl, by simp, ends_nil⟩
  | sql text =>
    cases h
    rw [List.mem_singleton.mp hc]
    rfl
  | onTable object change =>
    have habout := isAbout_tableCommands h c hc
    have hshape := shape_tableCommands h hc
    cases change with
    | create columns =>
      cases hexternal : isExternalDictionary m object.name with
      | true =>
        have hshared : (onTable object (.create columns)).sharedObject? m = none := if_pos hexternal
        simp only [hexternal, if_true] at hshape
        obtain ⟨o, rfl⟩ := hshape
        simp only [NamesCluster, hshared]
        rfl
      | false =>
        have hshared : (onTable object (.create columns)).sharedObject? m =
            some (target m object (.create columns)) := if_neg (by simp [hexternal])
        simp only [hexternal, Bool.false_eq_true, if_false] at hshape
        obtain ⟨s, rfl⟩ := hshape
        exact namesCluster_statement hshared (fun _ hwords => hwords) habout
    | insertData columns rows =>
      rw [hshape]
      rfl
    | rename name schema =>
      rw [hshape]
      refine ⟨_, "", rfl, ends_nil, ?_, ?_⟩
      all_goals
        simp [render, Provider.withCluster, Provider.terminate, onCluster, String.append_assoc]
    | _ =>
      obtain ⟨s, rfl⟩ := hshape
      exact namesCluster_statement rfl (fun _ hwords => hwords) habout

/-! ## The law -/

/-- With and without a cluster a migration is refused for the same reason, or has the same number
of commands in the same order. These are two by two the texts of the same operation, and the
second one names the cluster where the operation has it named and is otherwise the first. -/
theorem cluster_is_named_behind_each_object (p : Provider) (m : Model)
    (operations : List Operation) (cluster : String) :
    (∃ fault, migrate (p.withCluster none) m operations = .error fault ∧
      migrate (p.withCluster (some cluster)) m operations = .error fault) ∨
    ∃ sorted pairs, sort m p.cyclePolicy operations = .ok sorted ∧
      migrate (p.withCluster none) m operations = .ok (pairs.flatten.map (·.1)) ∧
      migrate (p.withCluster (some cluster)) m operations = .ok (pairs.flatten.map (·.2)) ∧
      List.Forall₂ (fun (o : Operation) (texts : List (String × String)) =>
        o.statements (p.withCluster none) m = .ok (texts.map (·.1)) ∧
        o.statements (p.withCluster (some cluster)) m = .ok (texts.map (·.2)) ∧
        ∀ t ∈ texts, NamesCluster p m cluster o t.1 t.2) sorted pairs := by
  rw [migrate_withCluster, migrate_withCluster]
  cases hplanned : sort m p.cyclePolicy operations >>= List.mapM (Operation.commands p m) with
  | error fault => exact Or.inl ⟨fault, rfl, rfl⟩
  | ok lists =>
    obtain ⟨sorted, hsort, hlists⟩ := Outcome.bind_eq_ok.mp hplanned
    let both (c : Command) :=
      (c.render (p.withCluster none), c.render (p.withCluster (some cluster)))
    refine Or.inr ⟨sorted, lists.map (List.map both), hsort, ?_, ?_, ?_⟩
    · rw [← List.map_flatten, List.map_map]
      rfl
    · rw [← List.map_flatten, List.map_map]
      rfl
    · rw [List.forall₂_map_right_iff]
      refine (Outcome.mapM_eq_ok.mp hlists).imp fun o commands ho => ⟨?_, ?_, ?_⟩
      · rw [statements_withCluster none ho, List.map_map]
        rfl
      · rw [statements_withCluster (some cluster) ho, List.map_map]
        rfl
      · intro t ht
        obtain ⟨c, hc, rfl⟩ := List.mem_map.mp ht
        exact namesCluster_of_mem ho hc

/-- A table is created and loses a column on a cluster, and its rows are written as without one. -/
theorem created_and_altered_table_name_their_cluster :
    let on (change : TableChange) := onTable ⟨none, "T"⟩ change
    let batch := [on (.create [{ name := "A", type := .int32 }]), on (.dropColumn "B"),
      on (.insertData ["A"] [[.int 1]])]
    let layout := "\n(\n    \"A\" Int32\n)\nENGINE = MergeTree()\nORDER BY tuple();"
    let pairs := [("CREATE TABLE IF NOT EXISTS \"T\"" ++ layout,
        "CREATE TABLE IF NOT EXISTS \"T\" ON CLUSTER \"main\"" ++ layout),
      ("ALTER TABLE \"T\" DROP COLUMN IF EXISTS \"B\";",
        "ALTER TABLE \"T\" ON CLUSTER \"main\" DROP COLUMN IF EXISTS \"B\";"),
      ("INSERT INTO \"T\" (\"A\") VALUES\n(1);", "INSERT INTO \"T\" (\"A\") VALUES\n(1);")]
    ∃ sorted told, List.flatten told = pairs ∧
      migrate {} {} batch = .ok (pairs.map (·.1)) ∧
      migrate { cluster := some "main" } {} batch = .ok (pairs.map (·.2)) ∧
      List.Forall₂ (fun (o : Operation) (texts : List (String × String)) =>
        ∀ t ∈ texts, NamesCluster {} {} "main" o t.1 t.2) sorted told := by
  intro on batch layout pairs
  have hplain : migrate {} {} batch = .ok (pairs.map (·.1)) := by rfl
  have hclustered : migrate { cluster := some "main" } {} batch = .ok (pairs.map (·.2)) := by rfl
  rcases cluster_is_named_behind_each_object {} {} batch "main" with
    ⟨fault, hfault, _⟩ | ⟨sorted, told, _, hfirst, hsecond, htold⟩
  · cases hfault.symm.trans hplain
  · refine ⟨sorted, told, ?_, hplain, hclustered, htold.imp fun _ _ h => h.2.2⟩
    have hone : told.flatten.map (·.1) = pairs.map (·.1) :=
      Except.ok.inj (hfirst.symm.trans hplain)
    have htwo : told.flatten.map (·.2) = pairs.map (·.2) :=
      Except.ok.inj (hsecond.symm.trans hclustered)
    rw [← List.zip_unzip told.flatten, ← List.zip_unzip pairs, List.unzip_eq_map, hone, htwo,
      ← List.unzip_eq_map]

end Operation

end ColumnStore
