-- A migration is written as a whole or not at all: each operation of the batch
-- contributes its own statements once, and one that is refused leaves none.
import ColumnStore.Migration.Command
import ColumnStore.Proofs.Migration.CreationOrder
import ColumnStore.Proofs.Outcome

namespace ColumnStore

namespace Text

theorem occurs_eq_true_iff {word text : List Char} :
    occurs word text = true ↔ word <:+: text := by
  induction text with
  | nil => simp [occurs]
  | cons c text ih =>
    rw [occurs, Bool.or_eq_true, List.isPrefixOf_iff_prefix, ih, List.infix_cons_iff]

/-- Some of the words stands in the text, in any case. -/
def MentionsAny (words : List String) (text : String) : Prop :=
  ∃ word ∈ words, word.toList <:+: text.toList.map foldChar

end Text

namespace Operation

/-! ## What is never possible -/

def identityWords : List String := ["identity", "autoincrement", "auto_increment", "serial"]

/-- The annotation names an identity, or chooses one as the way to generate values. -/
def IsIdentity (name value : String) : Prop :=
  Text.MentionsAny identityWords name ∨
    Text.MentionsAny ["valuegeneration"] name ∧ Text.MentionsAny identityWords value

theorem asksForIdentity_eq_true_iff {name value : String} :
    asksForIdentity name value = true ↔ IsIdentity name value := by
  simp [asksForIdentity, IsIdentity, Text.MentionsAny, identityWords, Text.mentions,
    Text.occurs_eq_true_iff, or_assoc]

/-- A change that the store cannot do, whatever the table. -/
def Impossible : TableChange → Prop
  | .addForeignKey _ _ _ _ | .dropForeignKey _ | .addPrimaryKey _ _ | .dropPrimaryKey _ => True
  | .renameColumn _ _ | .updateData | .deleteData => True
  | .createIndex _ _ unique _ => unique = true
  | .addColumn _ annotations | .alterColumn _ annotations =>
    ∃ entry ∈ annotations.entries, IsIdentity entry.1 entry.2
  | _ => False

variable {p : Provider} {m : Model} {operations : List Operation}

theorem refuseIdentity_ne_ok {table : String} {c : Column} {annotations : SortedMap String}
    (h : ∃ entry ∈ annotations.entries, IsIdentity entry.1 entry.2) :
    refuseIdentity table c annotations ≠ .ok () := by
  obtain ⟨entry, hmem, hidentity⟩ := h
  intro hok
  unfold refuseIdentity at hok
  split at hok
  · rename_i hnone
    have := List.find?_eq_none.mp hnone entry hmem
    exact this (asksForIdentity_eq_true_iff.mpr hidentity)
  · cases hok

theorem statements_ne_ok {change : TableChange} (h : Impossible change) (object : ObjectName)
    (texts : List String) : (onTable object change).statements p m ≠ .ok texts := by
  intro hok
  obtain ⟨commands, hcommands, _⟩ := Outcome.bind_pure_eq_ok.mp hok
  simp only [Operation.commands] at hcommands
  have hcolumn : ∀ c annotations action,
      (∃ entry ∈ annotations.entries, IsIdentity entry.1 entry.2) →
        alterColumn p object c annotations action ≠ .ok commands := by
    intro c annotations action hidentity halter
    obtain ⟨_, hrefuse, _⟩ := Outcome.bind_eq_ok.mp halter
    exact refuseIdentity_ne_ok hidentity hrefuse
  cases change with
  | addColumn c annotations => exact hcolumn _ _ _ h hcommands
  | alterColumn c annotations => exact hcolumn _ _ _ h hcommands
  | createIndex name columns unique skip =>
    cases h
    cases hcommands
  | create _ | drop | rename _ _ | dropColumn _ | dropIndex _ | addProjection _ _ _
  | dropProjection _ _ | materializeProjection _ _ _ | insertData _ _ => exact h.elim
  | _ => cases hcommands

/-! ## The whole batch -/

theorem migrate_eq_ok_iff {texts : List String} :
    migrate p m operations = .ok texts ↔
      ∃ sorted, sort m p.cyclePolicy operations = .ok sorted ∧
        ∃ lists, sorted.mapM (statements p m) = .ok lists ∧ lists.flatten = texts := by
  unfold migrate
  rw [Outcome.bind_eq_ok]
  simp only [Outcome.bind_pure_eq_ok]

theorem mem_sorted {policy : CyclePolicy} {sorted : List Operation}
    (h : sort m policy operations = .ok sorted) {o : Operation} : o ∈ sorted ↔ o ∈ operations := by
  rw [eq_of_sort_eq_ok h]
  exact (pick_perm (arranged_perm m operations)).mem_iff

theorem migrates_iff :
    (∃ texts, migrate p m operations = .ok texts) ↔
      (∃ sorted, sort m p.cyclePolicy operations = .ok sorted) ∧
        ∀ o ∈ operations, ∃ list, o.statements p m = .ok list := by
  simp only [migrate_eq_ok_iff]
  constructor
  · rintro ⟨_, sorted, hsorted, lists, hlists, _⟩
    refine ⟨⟨sorted, hsorted⟩, fun o ho => ?_⟩
    exact Outcome.exists_mapM_eq_ok.mp ⟨lists, hlists⟩ o ((mem_sorted hsorted).mpr ho)
  · rintro ⟨⟨sorted, hsorted⟩, hall⟩
    obtain ⟨lists, hlists⟩ :=
      Outcome.exists_mapM_eq_ok.mpr fun o ho => hall o ((mem_sorted hsorted).mp ho)
    exact ⟨_, sorted, hsorted, lists, hlists, rfl⟩

/-- A migration consists of the statements of its operations. -/
theorem mem_migrate {texts : List String} (h : migrate p m operations = .ok texts)
    {text : String} :
    text ∈ texts ↔ ∃ o ∈ operations, ∃ list, o.statements p m = .ok list ∧ text ∈ list := by
  obtain ⟨sorted, hsorted, lists, hlists, rfl⟩ := migrate_eq_ok_iff.mp h
  rw [List.mem_flatten]
  constructor
  · rintro ⟨list, hlist, htext⟩
    obtain ⟨o, ho, hok⟩ := (Outcome.mem_of_mapM_eq_ok hlists).mp hlist
    exact ⟨o, (mem_sorted hsorted).mp ho, list, hok, htext⟩
  · rintro ⟨o, ho, list, hok, htext⟩
    have hlist := (Outcome.mem_of_mapM_eq_ok hlists).mpr ⟨o, (mem_sorted hsorted).mpr ho, hok⟩
    exact ⟨list, hlist, htext⟩

/-! ## The law -/

/-- A migration has its text exactly when the batch can be sorted and each operation has its own
statements; the text is then the statements of the operations, each once, in the sorted order.
One operation that is never possible leaves nothing, wherever it stands. -/
theorem migration_is_written_whole_or_not (p : Provider) (m : Model)
    (operations : List Operation) :
    ((∃ texts, migrate p m operations = .ok texts) ↔
      (∃ sorted, sort m p.cyclePolicy operations = .ok sorted) ∧
        ∀ o ∈ operations, ∃ list, o.statements p m = .ok list) ∧
    (∀ texts, migrate p m operations = .ok texts →
      ∃ positions lists, positions.Perm (List.range operations.length) ∧
        sort m p.cyclePolicy operations = .ok (pick operations positions) ∧
        List.Forall₂ (fun o list => o.statements p m = .ok list)
          (pick operations positions) lists ∧
        texts = lists.flatten) ∧
    ∀ object change, onTable object change ∈ operations → Impossible change →
      ∃ fault, migrate p m operations = .error fault := by
  refine ⟨migrates_iff, ?_, ?_⟩
  · intro texts h
    obtain ⟨sorted, hsorted, lists, hlists, htexts⟩ := migrate_eq_ok_iff.mp h
    obtain rfl := eq_of_sort_eq_ok hsorted
    exact ⟨arranged m operations, lists, arranged_perm m operations, hsorted,
      Outcome.mapM_eq_ok.mp hlists, htexts.symm⟩
  · intro object change hmem himpossible
    refine Outcome.eq_error_of_ne_ok fun texts htexts => ?_
    obtain ⟨list, hlist⟩ := (migrates_iff.mp ⟨texts, htexts⟩).2 _ hmem
    exact statements_ne_ok himpossible object list hlist

/-- An update in the middle of a batch leaves nothing of it, where another change is written with
the rest. -/
theorem update_in_the_middle_leaves_nothing :
    let batch (middle : TableChange) : List Operation :=
      [onTable ⟨none, "Old"⟩ .drop, onTable ⟨none, "T"⟩ middle, sql "SELECT 1"]
    Impossible .updateData ∧ (∃ fault, migrate {} {} (batch .updateData) = .error fault) ∧
      migrate {} {} (batch (.dropColumn "A")) = .ok ["DROP TABLE IF EXISTS \"Old\";",
        "ALTER TABLE \"T\" DROP COLUMN IF EXISTS \"A\";", "SELECT 1;"] ∧
      ∀ o ∈ batch (.dropColumn "A"), ∃ list, o.statements {} {} = .ok list := by
  intro batch
  have hwritten : migrate {} {} (batch (.dropColumn "A")) = .ok ["DROP TABLE IF EXISTS \"Old\";",
      "ALTER TABLE \"T\" DROP COLUMN IF EXISTS \"A\";", "SELECT 1;"] := by rfl
  have hmiddle : onTable ⟨none, "T"⟩ .updateData ∈ batch .updateData :=
    List.mem_cons_of_mem _ List.mem_cons_self
  obtain ⟨_, _, hrefused⟩ := migration_is_written_whole_or_not {} {} (batch .updateData)
  obtain ⟨hwhole, _, _⟩ := migration_is_written_whole_or_not {} {} (batch (.dropColumn "A"))
  exact ⟨trivial, hrefused _ _ hmiddle trivial, hwritten, (hwhole.mp ⟨_, hwritten⟩).2⟩

end Operation

end ColumnStore
