-- Paths into JSON columns in SQL. Each segment is written as one step into the
-- value, in the order of the path, and the steps are read back from the text,
-- so two paths into one column are written alike only where they are the same.
import ColumnStore.Proofs.Query.Indices
import ColumnStore.Proofs.Value.Reading

namespace ColumnStore

open Text

/-! ## Steps -/

/-- A step into a JSON value: a field by its name, or an element by its place, which counts from
one on, or from minus one at the end. -/
inductive Access where
  | field (name : String)
  | element (place : Int64)
  deriving DecidableEq

namespace Access

/-- How a step stands behind what it is taken from. -/
def text : Access → List Char
  | field name => '.' :: (quoteName name).toList
  | element place => '[' :: ((toString place.toInt).toList ++ [']'])

def read : Reader Access
  | '.' :: cs => (readQuotedName cs).map fun (name, rest) => (field name, rest)
  | '[' :: cs => do
    let (place, rest) ← readWord cs
    return (element place, ← skip? "]" rest)
  | _ => none

/-- Reads steps to the end of the text, no step being shorter than a character. -/
def readSteps (text : String) : Option (List Access) :=
  readAll read text.toList.length text.toList

theorem text_ne_nil (a : Access) : a.text ≠ [] := by cases a <;> exact List.cons_ne_nil _ _

theorem isRead_read (a : Access) : IsRead read text (·.head? ≠ some '"') a := by
  intro rest hrest
  cases a with
  | field name =>
    rw [text, List.cons_append, read, readQuotedName_quoteName name hrest]
    rfl
  | element place =>
    have hplace := readWord_toString place (endsWord_cons (c := ']') (by decide) rest)
    rw [text, List.cons_append, List.append_assoc, read, List.singleton_append, hplace]
    rfl

/-- Steps are read back from their texts. -/
theorem readSteps_flatMap (steps : List Access) :
    readSteps (.ofList (steps.flatMap text)) = some steps := by
  have hmost : steps.length ≤ (steps.flatMap text).length := by
    induction steps with
    | nil => exact Nat.le_refl _
    | cons a steps ih =>
      have := List.length_pos_iff.mpr a.text_ne_nil
      rw [List.flatMap_cons, List.length_append, List.length_cons]
      omega
  rw [readSteps, String.toList_ofList]
  apply readAll_flatMap hmost (fun a _ => a.isRead_read) (fun a _ => a.text_ne_nil) _ nofun
  rintro (name | place) cs <;> simp [text]

end Access

namespace Sql

/-- One step into a value. -/
def access (base : Sql) : Access → Sql
  | .field name => .subcolumn base (quoteName name)
  | .element place => .subscript base (.raw (toString place.toInt))

/-- Steps stand behind the value in their order, and nothing comes between them. -/
theorem render_foldl_access {base : Sql} (h : base.needsParens = false) (steps : List Access) :
    (steps.foldl access base).render = base.render ++ .ofList (steps.flatMap Access.text) := by
  induction steps generalizing base with
  | nil => simp
  | cons a steps ih =>
    have hstep : (base.access a).render = base.render ++ .ofList a.text := by
      cases a <;> simp [access, render, parenthesised, h, Access.text, ← String.toList_inj]
    have hopen : (base.access a).needsParens = false := by cases a <;> rfl
    rw [List.foldl_cons, ih hopen, hstep, List.flatMap_cons, String.ofList_append,
      String.append_assoc]

end Sql

/-! ## Segments -/

/-- The step that a segment is written as: a key is a field, and an index is shifted once. -/
inductive JsonSegment.Writes : JsonSegment → Access → Prop
  | key (name : String) : Writes (.key name) (.field name)
  | index {i place : Int64} (h : place.toInt = oneBased i.toInt) :
    Writes (.index i) (.element place)

theorem oneBased_injective {v w : Int} (h : oneBased v = oneBased w) : v = w := by
  unfold oneBased at h
  split at h <;> split at h <;> omega

theorem exists_toInt_eq_iff {v : Int} : (∃ n : Int64, n.toInt = v) ↔ FitsWord v := by
  constructor
  · rintro ⟨n, rfl⟩
    exact fitsWord_toInt n
  · exact fun h => ⟨_, Int64.toInt_ofInt_of_le h.1 (Int.lt_add_one_of_le h.2)⟩

/-- The greatest word alone has no word behind it. -/
theorem fitsWord_oneBased_iff {i : Int64} : FitsWord (oneBased i.toInt) ↔ i ≠ Int64.maxValue := by
  have hmax : Int64.maxValue.toInt = 9223372036854775807 := rfl
  have hfits := fitsWord_toInt i
  rw [ne_eq, ← Int64.toInt_inj, hmax]
  unfold FitsWord oneBased at *
  split <;> omega

namespace JsonSegment

theorem leftUnique_writes : Relator.LeftUnique Writes := by
  intro s a t hs ht
  cases hs with
  | key => cases ht with | key => rfl
  | index hi =>
    cases ht with
    | index hj =>
      rw [hi] at hj
      rw [Int64.toInt_inj.mp (oneBased_injective hj)]

theorem not_writes_zero (s : JsonSegment) : ¬s.Writes (.element 0) := by
  intro h
  cases h with
  | index hi => exact oneBased_ne_zero _ hi.symm

theorem exists_writes_index_iff {i : Int64} :
    (∃ a, Writes (.index i) a) ↔ ∃ place : Int64, place.toInt = oneBased i.toInt := by
  constructor
  · rintro ⟨_, hi⟩
    cases hi with
    | index h => exact ⟨_, h⟩
  · rintro ⟨place, h⟩
    exact ⟨_, .index h⟩

theorem exists_writes_iff {s : JsonSegment} :
    (∃ a, s.Writes a) ↔ s ≠ .index Int64.maxValue := by
  cases s with
  | key name => exact ⟨fun _ => nofun, fun _ => ⟨_, .key name⟩⟩
  | index i =>
    rw [exists_writes_index_iff, exists_toInt_eq_iff, fitsWord_oneBased_iff, ne_eq, ne_eq,
      index.injEq]

end JsonSegment

/-- A path has steps unless one of its indices is the greatest word. -/
theorem exists_steps_iff {path : List JsonSegment} :
    (∃ steps, List.Forall₂ JsonSegment.Writes path steps) ↔ .index Int64.maxValue ∉ path := by
  simp only [Outcome.exists_forall₂_iff, JsonSegment.exists_writes_iff]
  exact ⟨fun h hmem => h _ hmem rfl, fun h s hs heq => h (heq ▸ hs)⟩

/-! ## Paths -/

namespace Lowering

variable {e : Expr} {ps qs : List BoundParameter}

theorem run_shiftedConstant_eq_ok {i : Int64} {s : Sql} :
    (shiftedConstant e i).run ps = .ok (s, qs) ↔
      qs = ps ∧ ∃ place : Int64, place.toInt = oneBased i.toInt ∧
        s = .raw (toString place.toInt) := by
  simp only [← shiftIndex?_eq_some_iff]
  unfold shiftedConstant
  cases shiftIndex? i with
  | none => exact ⟨fun h => absurd h run_refuse_ne_ok, fun ⟨_, _, h, _⟩ => nomatch h⟩
  | some place =>
    simp only [run_pure_eq_ok, Prod.mk.injEq, Option.some.injEq, exists_eq_left']
    exact and_comm

/-- The induction goes along the path, from a value that the steps before have led to. -/
theorem run_alongPath_eq_ok {base s : Sql} {path : List JsonSegment} :
    (alongPath e base path).run ps = .ok (s, qs) ↔
      qs = ps ∧ ∃ steps, List.Forall₂ JsonSegment.Writes path steps ∧
        s = steps.foldl Sql.access base := by
  induction path generalizing base ps with
  | nil =>
    simp only [alongPath, run_pure_eq_ok, Prod.mk.injEq, List.forall₂_nil_left_iff, exists_eq_left,
      List.foldl_nil]
    exact and_comm
  | cons segment path ih =>
    simp only [List.forall₂_cons_left_iff]
    cases segment with
    | key name =>
      rw [alongPath, ih]
      constructor
      · rintro ⟨hps, steps, hsteps, rfl⟩
        exact ⟨hps, _, ⟨_, steps, .key name, hsteps, rfl⟩, rfl⟩
      · rintro ⟨hps, _, ⟨_, steps, ⟨⟩, hsteps, rfl⟩, rfl⟩
        exact ⟨hps, steps, hsteps, rfl⟩
    | index i =>
      rw [alongPath, run_bind_eq_ok]
      simp only [run_shiftedConstant_eq_ok, ih]
      constructor
      · rintro ⟨_, _, ⟨rfl, place, hplace, rfl⟩, hps, steps, hsteps, rfl⟩
        exact ⟨hps, _, ⟨_, steps, .index hplace, hsteps, rfl⟩, rfl⟩
      · rintro ⟨rfl, _, ⟨_, steps, hfirst, hsteps, rfl⟩, rfl⟩
        cases hfirst with
        | index hplace => exact ⟨_, _, ⟨rfl, _, hplace, rfl⟩, rfl, steps, hsteps, rfl⟩

end Lowering

namespace Expr

variable {d : TypeDefaults} {table : Option String} {name : String} {type : ValueType}

/-- The SQL of a path into a column is the column with the steps of the path behind it. -/
theorem prepare_jsonPath_eq_ok_iff (hjson : type.isJson = true) {path : List JsonSegment}
    {q : PreparedQuery} : ((column table name type).jsonPath path).prepare d = .ok q ↔
      ∃ steps, List.Forall₂ JsonSegment.Writes path steps ∧
        q = ⟨qualifiedName table name ++ .ofList (steps.flatMap Access.text), []⟩ := by
  have hlower : ((column table name type).jsonPath path).lower d [] =
      Lowering.alongPath ((column table name type).jsonPath path)
        (.identifier (qualifiedName table name)) path := by
    rw [lower, lower, type?, Option.any_some, if_pos hjson]
    rfl
  have hrender := @Sql.render_foldl_access (.identifier (qualifiedName table name)) rfl
  rw [prepare, hlower, Outcome.bind_eq_ok]
  simp only [Prod.exists, Lowering.run_alongPath_eq_ok]
  constructor
  · rintro ⟨_, _, ⟨rfl, steps, hsteps, rfl⟩, hq⟩
    refine ⟨steps, hsteps, ?_⟩
    rw [hrender, Sql.render] at hq
    exact (Except.ok.inj hq).symm
  · rintro ⟨steps, hsteps, rfl⟩
    refine ⟨_, _, ⟨rfl, steps, hsteps, rfl⟩, ?_⟩
    rw [hrender, Sql.render]
    rfl

/-- A path into a column is refused where one of its indices is the greatest word, and only there.
Else it is written with one step for each segment, which the text shows in their order, and no
element has the place zero. Two paths are written alike only where they are the same. -/
theorem json_paths_are_told_apart (d : TypeDefaults) (table : Option String) (name : String)
    (hjson : type.isJson = true) :
    let written := fun path => ((column table name type).jsonPath path).prepare d
    (∀ path, (∃ fault, written path = .error fault) ↔ .index Int64.maxValue ∈ path) ∧
    (∀ path q, written path = .ok q → ∃ behind steps,
      q = ⟨qualifiedName table name ++ behind, []⟩ ∧ Access.readSteps behind = some steps ∧
        List.Forall₂ JsonSegment.Writes path steps ∧ .element 0 ∉ steps) ∧
    ∀ path other q r, written path = .ok q → written other = .ok r → q.sql = r.sql →
      path = other := by
  intro written
  have hwritten : ∀ {path q}, written path = .ok q ↔ _ := prepare_jsonPath_eq_ok_iff hjson
  refine ⟨fun path => ?_, fun path q hq => ?_, fun path other q r hq hr heq => ?_⟩
  · rw [← not_iff_not, ← exists_steps_iff]
    constructor
    · intro hnone
      cases hresult : written path with
      | error fault => exact absurd ⟨fault, hresult⟩ hnone
      | ok q =>
        obtain ⟨steps, hsteps, _⟩ := hwritten.mp hresult
        exact ⟨steps, hsteps⟩
    · rintro ⟨steps, hsteps⟩ ⟨fault, hfault⟩
      rw [hwritten.mpr ⟨steps, hsteps, rfl⟩] at hfault
      cases hfault
  · obtain ⟨steps, hsteps, rfl⟩ := hwritten.mp hq
    refine ⟨_, steps, rfl, Access.readSteps_flatMap steps, hsteps, fun hzero => ?_⟩
    obtain ⟨segment, _, hsegment⟩ := Outcome.exists_mem_of_forall₂ hsteps hzero
    exact segment.not_writes_zero hsegment
  · obtain ⟨steps, hsteps, rfl⟩ := hwritten.mp hq
    obtain ⟨others, hothers, rfl⟩ := hwritten.mp hr
    have hbehind := (String.append_right_inj _).mp heq
    have hsame : steps = others := by
      have := congrArg Access.readSteps hbehind
      rw [Access.readSteps_flatMap, Access.readSteps_flatMap] at this
      exact Option.some.inj this
    subst hsame
    exact List.left_unique_forall₂' JsonSegment.leftUnique_writes hsteps hothers

/-- A key that holds quotes, dots and brackets is not taken for other segments. -/
theorem quoted_separators_separate_nothing :
    let written := fun path =>
      ((column (some "Logs") "Body" (.nullable .json)).jsonPath path).prepare {}
    let path := [.key "a\".\"b[1]", .index (-1)]
    let other := [.key "a", .key "b", .index 0, .index (-1)]
    ValueType.isJson (.nullable .json) = true ∧
    (∃ q r, written path = .ok q ∧ q.sql = "\"Logs\".\"Body\".\"a\"\".\"\"b[1]\"[-1]" ∧
      written other = .ok r ∧ r.sql = "\"Logs\".\"Body\".\"a\".\"b\"[1][-1]" ∧ q.sql ≠ r.sql) ∧
    ∃ fault, written (path ++ [.index 9223372036854775807]) = .error fault := by
  intro written path other
  have hjson : ValueType.isJson (.nullable .json) = true := rfl
  obtain ⟨hfault, _, hdistinct⟩ := json_paths_are_told_apart {} (some "Logs") "Body" hjson
  have hpath : written path =
      .ok ⟨"\"Logs\".\"Body\".\"a\"\".\"\"b[1]\"[-1]", []⟩ := by decide
  have hother : written other = .ok ⟨"\"Logs\".\"Body\".\"a\".\"b\"[1][-1]", []⟩ := by decide
  refine ⟨hjson, ⟨_, _, hpath, rfl, hother, rfl, fun heq => ?_⟩, (hfault _).mpr (by decide)⟩
  have hsame : path = other := hdistinct _ _ _ _ hpath hother heq
  revert hsame
  decide

end Expr

end ColumnStore
