-- What the statements about one object begin with: a verb, then the object's
-- name, then a blank, a line or nothing, so that the name is read back from
-- the text.
import ColumnStore.Proofs.Outcome
import ColumnStore.Proofs.Text.Quoted
import ColumnStore.Table.Clause

namespace ColumnStore

open ObjectName

theorem ends_onCluster (cluster : Option String) {rest : String} (h : Ends rest.toList) :
    Ends (onCluster cluster ++ rest).toList := by
  cases cluster with
  | none => simpa [onCluster] using h
  | some name => simp [onCluster, Ends]

namespace Statement

/-- A statement with the verb about the object, with a line of its own behind them. -/
structure Creates (s : Statement) (verb : String) (object : ObjectName) : Prop where
  verb_eq : s.verb = verb
  object_eq : s.object = object
  head_eq : s.rest.toList.head? = some '\n'

theorem render_append (s : Statement) (cluster : Option String) (tail : String) :
    s.render cluster ++ tail =
      s.verb ++ " " ++ (s.object.quoted ++ (onCluster cluster ++ (s.rest ++ tail))) := by
  simp only [render, String.append_assoc]

/-- The object stands behind the verb. -/
theorem behind?_render {s : Statement} {tail : String} (h : Ends (s.rest ++ tail).toList)
    (cluster : Option String) :
    behind? (s.verb ++ " ") (s.render cluster ++ tail) = some s.object.written := by
  rw [render_append, behind?_eq_written _ _ (ends_onCluster cluster h)]

/-- The object is the first name in quotes where the verb has none. -/
theorem first?_render {s : Statement} (hverb : '"' ∉ s.verb.toList) (h : Ends s.rest.toList)
    (cluster : Option String) : first? (s.render cluster) = some s.object.written := by
  have htext := render_append s cluster ""
  rw [String.append_empty, String.append_empty] at htext
  rw [htext]
  exact first?_eq_written (by simpa using hverb) _ (ends_onCluster cluster h)

theorem Creates.ends {s : Statement} {verb : String} {object : ObjectName}
    (h : s.Creates verb object) (tail : String) : Ends (s.rest ++ tail).toList := by
  obtain ⟨cs, hcs⟩ := List.head?_eq_some_iff.mp h.head_eq
  rw [String.toList_append, hcs]
  exact ends_cons (by decide) (by decide) _

end Statement

/-! ## Creations -/

theorem Entity.creates_createTable {e : Entity} {d : TypeDefaults} {s : Statement}
    (h : e.createTable d = .ok s) : s.Creates "CREATE TABLE IF NOT EXISTS" e.object := by
  unfold createTable at h
  obtain ⟨columns, _, h⟩ := Outcome.bind_eq_ok.mp h
  dsimp only at h
  split at h
  · cases h
  · cases h
    exact ⟨rfl, rfl, by simp⟩

theorem Entity.creates_createView (e : Entity) (v : MaterializedView) :
    (e.createView v).Creates "CREATE MATERIALIZED VIEW IF NOT EXISTS" e.object :=
  ⟨rfl, rfl, by simp [createView]⟩

theorem Dictionary.creates_createFromStore {d : Dictionary} {object : ObjectName}
    {t : TypeDefaults} {s : Statement} (h : d.createFromStore object t = .ok s) :
    s.Creates "CREATE DICTIONARY IF NOT EXISTS" object := by
  unfold createFromStore at h
  obtain ⟨source, _, h⟩ := Outcome.bind_eq_ok.mp h
  unfold create at h
  obtain ⟨keys, _, h⟩ := Outcome.bind_eq_ok.mp h
  obtain ⟨attributes, _, rfl⟩ := Outcome.bind_pure_eq_ok.mp h
  exact ⟨rfl, rfl, by simp⟩

end ColumnStore
