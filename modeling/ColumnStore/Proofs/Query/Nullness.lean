-- The test for an empty text under the nulls of the store: what is made of a
-- null is null, unless it asks for nulls. The lowering guards the test by the
-- static type of the text, and that is the type of the part it begins with.
import ColumnStore.Proofs.Query.Indices

namespace ColumnStore

/-! ## Data and nulls -/

/-- What a query reads when it runs. -/
inductive Source where
  | column (name : ObjectName)
  | parameter (name : String)
  deriving DecidableEq

/-- What the store makes of data that are not null. The test for an empty text gives a truth
value. -/
structure Interpretation (α : Type) where
  literal : String → α
  truth : Bool → α
  /-- Whether a test holds, so that the first choice is taken. -/
  holds : α → Bool
  apply : String → List α → α
  apply_empty : ∀ a, ∃ b, apply "empty" [a] = truth b

namespace Interpretation

variable {α : Type} (F : Interpretation α)

/-- An operator or a function that is null as soon as one of its arguments is. -/
def strict (name : String) (arguments : List (Option α)) : Option α :=
  if arguments.any Option.isNone then none else some (F.apply name arguments.reduceOption)

/-- Of the functions two ask for nulls. A test that is null does not hold. -/
def call (name : String) (arguments : List (Option α)) : Option α :=
  match name, arguments with
  | "ifNull", [x, y] => x.or y
  | "if", [test, x, y] => if test.any F.holds then x else y
  | name, arguments => F.strict name arguments

theorem strict_eq_none {name : String} {arguments : List (Option α)} :
    F.strict name arguments = none ↔ none ∈ arguments := by
  have hany : arguments.any Option.isNone = true ↔ none ∈ arguments := by
    simp [List.any_eq_true]
  rw [← hany, strict]
  split <;> simp_all

theorem call_ifNull (x y : Option α) : F.call "ifNull" [x, y] = x.or y := rfl

theorem call_if (test x y : Option α) :
    F.call "if" [test, x, y] = if test.any F.holds then x else y := rfl

theorem call_eq_strict {name : String} (hif : name ≠ "if") (hifNull : name ≠ "ifNull")
    (arguments : List (Option α)) : F.call name arguments = F.strict name arguments := by
  unfold call
  split
  · exact absurd rfl hifNull
  · exact absurd rfl hif
  · rfl

/-- Texts and truth values, with some of the functions on texts. -/
def onTexts : Interpretation (String ⊕ Bool) where
  literal text :=
    match Text.readQuotedLiteral text.toList with
    | some (s, []) => .inl s
    | _ => .inl text
  truth := .inr
  holds a := a = .inr true
  apply
    | "empty", [.inl s] => .inr s.isEmpty
    | "empty", _ => .inr false
    | "concat", [.inl s, .inl t] => .inl (s ++ t)
    | "upperUTF8", [.inl s] => .inl s.toUpper
    | _, _ => .inl ""
  apply_empty a := by cases a <;> exact ⟨_, rfl⟩

/-- The placeholder of a parameter stands for what is bound under its name. -/
def raw? (ρ : Source → Option α) (text : String) : Option α :=
  match text.toList with
  | '\x7b' :: cs => ρ (.parameter (.ofList (cs.takeWhile (· ≠ ':'))))
  | _ => if text = "NULL" then none else some (F.literal text)

end Interpretation

namespace Sql

variable {α : Type} (F : Interpretation α) (ρ : Source → Option α)

mutual

/-- What the SQL comes to, `none` where it is null. Lambdas and their parameters come to nothing on
their own. -/
def datum? : Sql → Option α
  | identifier text => do ρ (.column (← ObjectName.read? text.toList).1)
  | raw text => F.raw? ρ text
  | var _ | lambda _ _ => none
  | function name arguments => F.call name (data arguments)
  | binary left op right => F.strict op [left.datum?, right.datum?]
  | not operand => F.strict "NOT" [operand.datum?]
  | negate operand => F.strict "-" [operand.datum?]
  | isNull operand negated => some (F.truth (operand.datum?.isNone != negated))
  | subcolumn base key => F.strict ("." ++ key) [base.datum?]
  | subscript target index => F.strict "[]" [target.datum?, index.datum?]
  | cast operand typeName => F.strict ("CAST AS " ++ typeName) [operand.datum?]

def data : List Sql → List (Option α)
  | [] => []
  | s :: ss => s.datum? :: data ss

end

variable {F ρ}

theorem datum?_identifier (text : String) : (identifier text).datum? F ρ =
    (ObjectName.read? text.toList).bind fun read => ρ (.column read.1) := rfl

theorem datum?_raw (text : String) : (raw text).datum? F ρ = F.raw? ρ text := rfl

theorem datum?_binary (left : Sql) (op : String) (right : Sql) :
    (binary left op right).datum? F ρ = F.strict op [left.datum? F ρ, right.datum? F ρ] := rfl

theorem data_eq_map (as : List Sql) : data F ρ as = as.map (datum? F ρ) := by
  induction as with
  | nil => rfl
  | cons s ss ih => exact congrArg (s.datum? F ρ :: ·) ih

theorem datum?_function (name : String) (as : List Sql) :
    (function name as).datum? F ρ = F.call name (as.map (datum? F ρ)) :=
  congrArg (F.call name) (data_eq_map as)

theorem datum?_column (table : Option String) (name : String) :
    (identifier (Text.qualifiedName table name)).datum? F ρ =
      ρ (.column (ObjectName.mk table name).written) := by
  rw [datum?_identifier, ObjectName.read?_qualifiedName, Option.bind_some]

theorem datum?_placeholder {name : String} (h : Text.isPlainName name = true)
    (storeType : String) :
    (raw (Text.placeholder name storeType)).datum? F ρ = ρ (.parameter name) := by
  obtain ⟨cs, htext, hname⟩ := Text.exists_toList_placeholder h storeType
  simp only [datum?_raw, Interpretation.raw?, htext, hname]

theorem datum?_literal (s : String) : (raw (Text.literal s)).datum? F ρ ≠ none := by
  have hnull : Text.literal s ≠ "NULL" := by
    intro heq
    have hfirst := congrArg String.toList heq
    rw [Text.toList_literal] at hfirst
    cases (List.cons.inj hfirst).1
  rw [datum?_raw, Interpretation.raw?, Text.toList_literal]
  simp [hnull]

theorem datum?_number (n : Int) : (raw (toString n)).datum? F ρ ≠ none := by
  have hnull : toString n ≠ "NULL" := by
    intro heq
    have hmem : 'N' ∈ (toString n).toList := by
      rw [heq]
      decide
    rcases Text.mem_toString_int hmem with hc | hc <;> exact absurd hc (by decide)
  rw [datum?_raw, Interpretation.raw?]
  split
  · rename_i cs hbrace
    have hmem : '\x7b' ∈ (toString n).toList := hbrace ▸ List.mem_cons_self
    rcases Text.mem_toString_int hmem with hc | hc <;> exact absurd hc (by decide)
  · rw [if_neg hnull]
    nofun

/-- A function that does not ask for nulls is null where an argument is. -/
theorem function_eq_none {name : String} {as : List Sql} (hif : name ≠ "if")
    (hifNull : name ≠ "ifNull") :
    (function name as).datum? F ρ = none ↔ ∃ a ∈ as, a.datum? F ρ = none := by
  rw [datum?_function, F.call_eq_strict hif hifNull, F.strict_eq_none, List.mem_map]

theorem binary_eq_none {op : String} {l r : Sql} :
    (binary l op r).datum? F ρ = none ↔ l.datum? F ρ = none ∨ r.datum? F ρ = none := by
  rw [datum?_binary, F.strict_eq_none]
  simp [eq_comm]

/-- An index that the query shifts is null where the index is. -/
theorem shift_eq_none (i : Sql) :
    (function "if" [binary i ">=" (raw "0"), binary i "+" (raw "1"), i]).datum? F ρ = none ↔
      i.datum? F ρ = none := by
  have hone : (raw "1").datum? F ρ ≠ none := datum?_number 1
  have hsum : (binary i "+" (raw "1")).datum? F ρ = none ↔ i.datum? F ρ = none := by
    rw [binary_eq_none, or_iff_left hone]
  rw [datum?_function, List.map_cons, List.map_cons, List.map_cons, List.map_nil, F.call_if]
  split
  · exact hsum
  · rfl

theorem ifNull_ne_none (s : Sql) (text : String) :
    (function "ifNull" [s, raw (Text.literal text)]).datum? F ρ ≠ none := by
  rw [datum?_function, List.map_cons, List.map_cons, List.map_nil, F.call_ifNull, Ne,
    Option.or_eq_none_iff]
  exact fun h => datum?_literal text h.2

/-- The test for an empty text gives a truth value unless the text is null. -/
theorem exists_truth_iff (s : Sql) : (∃ b, (function "empty" [s]).datum? F ρ = some (F.truth b)) ↔
    s.datum? F ρ ≠ none := by
  have hnull : (function "empty" [s]).datum? F ρ = none ↔ s.datum? F ρ = none := by
    rw [function_eq_none (by decide) (by decide)]
    simp
  constructor
  · rintro ⟨b, hb⟩ hnone
    rw [hnull.mpr hnone] at hb
    cases hb
  · intro hsome
    obtain ⟨a, ha⟩ := Option.ne_none_iff_exists'.mp hsome
    obtain ⟨b, hb⟩ := F.apply_empty a
    refine ⟨b, ?_⟩
    rw [datum?_function, F.call_eq_strict (by decide) (by decide), List.map_cons, List.map_nil, ha]
    exact congrArg some hb

theorem combine_eq_none {op : Operator} {lt rt : Option ValueType} {l r : Sql} :
    (Lowering.combine op lt rt l r).datum? F ρ = none ↔
      l.datum? F ρ = none ∨ r.datum? F ρ = none := by
  unfold Lowering.combine
  dsimp only
  split
  · simp [function_eq_none]
  · split
    · simp [function_eq_none]
    · exact binary_eq_none

end Sql

/-! ## What an expression reads -/

namespace Expr

/-- The column or the parameter that an expression is, with the type it is read as. -/
def source? : Expr → Option (Source × ValueType)
  | column table name type => some (.column (ObjectName.mk table name).written, type)
  | parameter name type => some (.parameter name, type)
  | _ => none

/-- Somewhere in the expression the column or parameter is read as of the type. -/
def Reads (e : Expr) (source : Source) (type : ValueType) : Prop :=
  ∃ leaf, e.Contains leaf ∧ leaf.source? = some (source, type)

/-- Something that is read holds a null. -/
def ReadsNull {α : Type} (ρ : Source → Option α) (e : Expr) : Prop :=
  ∃ source type, e.Reads source type ∧ ρ source = none

/-- Nothing holds a null that is read as of a type without nulls. -/
def Fits {α : Type} (e : Expr) (ρ : Source → Option α) : Prop :=
  ∀ source type, e.Reads source type → type.isNullable = false → ρ source ≠ none

/-- Something is read as nullable throughout. -/
def MayReadNull (e : Expr) : Prop :=
  ∃ source type, e.Reads source type ∧ ∀ type, e.Reads source type → type.isNullable = true

/-- The part that a sum begins with is a column or a parameter that may be null. -/
def leadsNullable : Expr → Bool
  | column _ _ type | parameter _ type => type.isNullable
  | binary _ left _ => left.leadsNullable
  | _ => false

variable {α : Type} {ρ : Source → Option α} {e : Expr} {source : Source} {type : ValueType}

theorem reads_iff : e.Reads source type ↔
    e.source? = some (source, type) ∨ ∃ part ∈ e.parts, part.Reads source type := by
  unfold Reads
  constructor
  · rintro ⟨leaf, hleaf, hsource⟩
    rcases contains_iff.mp hleaf with rfl | ⟨part, hpart, hleaf⟩
    · exact Or.inl hsource
    · exact Or.inr ⟨part, hpart, leaf, hleaf, hsource⟩
  · rintro (hsource | ⟨part, hpart, leaf, hleaf, hsource⟩)
    · exact ⟨e, contains_iff.mpr (Or.inl rfl), hsource⟩
    · exact ⟨leaf, contains_iff.mpr (Or.inr ⟨part, hpart, hleaf⟩), hsource⟩

theorem readsNull_iff : e.ReadsNull ρ ↔
    (∃ source type, e.source? = some (source, type) ∧ ρ source = none) ∨
      ∃ part ∈ e.parts, part.ReadsNull ρ := by
  unfold ReadsNull
  simp only [reads_iff (e := e)]
  grind

theorem readsNull_column {table : Option String} {name : String} :
    (column table name type).ReadsNull ρ ↔
      ρ (.column (ObjectName.mk table name).written) = none := by
  rw [readsNull_iff]
  simp [source?, parts]

theorem readsNull_parameter {name : String} :
    (parameter name type).ReadsNull ρ ↔ ρ (.parameter name) = none := by
  rw [readsNull_iff]
  simp [source?, parts]

theorem readsNull_binary {op : Operator} {left right : Expr} :
    (binary op left right).ReadsNull ρ ↔ left.ReadsNull ρ ∨ right.ReadsNull ρ := by
  rw [readsNull_iff]
  simp [source?, parts]

theorem readsNull_call {target : Expr} {method : String} {arguments : List Expr} :
    (call target method arguments).ReadsNull ρ ↔
      target.ReadsNull ρ ∨ ∃ a ∈ arguments, a.ReadsNull ρ := by
  rw [readsNull_iff]
  simp [source?, parts]

/-- What is read as nullable throughout holds a null somewhere, and nothing else does. -/
theorem exists_readsNull_iff (a : α) : (∃ ρ : Source → Option α, e.Fits ρ ∧ e.ReadsNull ρ) ↔
    e.MayReadNull := by
  constructor
  · rintro ⟨ρ, hfits, source, type, hreads, hnull⟩
    refine ⟨source, type, hreads, fun type htype => ?_⟩
    by_contra hnullable
    exact hfits source type htype (Bool.eq_false_iff.mpr hnullable) hnull
  · rintro ⟨source, type, hreads, hnullable⟩
    refine ⟨fun other => if other = source then none else some a, ?_, source, type, hreads, ?_⟩
    · rintro other t ht hfilled hnull
      obtain rfl : other = source := by simpa using hnull
      rw [hnullable t ht] at hfilled
      cases hfilled
    · exact if_pos rfl

/-- What folds is made of constants alone. -/
theorem not_readsNull_of_fold? {value : Value} (h : e.fold? = some value) : ¬e.ReadsNull ρ := by
  rintro ⟨source, type, ⟨leaf, hleaf, hsource⟩, _⟩
  obtain ⟨w, hw⟩ := fold?_of_contains h hleaf
  have hcalculates := calculates_of_fold? hw
  unfold source? at hsource
  split at hsource <;> cases hsource <;> cases hcalculates

/-! ## Texts -/

/-- What is built from columns, parameters, texts and whole numbers by sums and by the methods of
texts. -/
inductive IsPhrase (bindings : Bindings) : Expr → Prop
  | column (table : Option String) (name : String) (type : ValueType) :
      IsPhrase bindings (column table name type)
  | parameter (name : String) (type : ValueType) : IsPhrase bindings (parameter name type)
  | text (s : String) : IsPhrase bindings (constant (.string s))
  | whole {value : Value} {n : Int} (h : value.whole? = some n) :
      IsPhrase bindings (constant value)
  | sum {left right : Expr} (hleft : IsPhrase bindings left) (hright : IsPhrase bindings right) :
      IsPhrase bindings (binary .add left right)
  | call {target : Expr} {method : String} {arguments : List Expr}
      (hreceiver : (target.type? bindings).bind Receiver.ofType? = some .string)
      (hmethod : (Method.ofName? .string method).isSome = true)
      (htarget : IsPhrase bindings target)
      (harguments : ∀ a ∈ arguments, IsPhrase bindings a) :
      IsPhrase bindings (call target method arguments)

variable {F : Interpretation α} {d : TypeDefaults} {bindings : Bindings}

/-- The methods of texts give texts and truth values, and none that may be null. -/
theorem resultType?_string {name : String} {m : Method} (h : Method.ofName? .string name = some m)
    (t : ValueType) : ∃ u, m.resultType? t = some u ∧ u.isNullable = false := by
  unfold Method.ofName? at h
  dsimp only at h
  split at h <;> cases h <;> exact ⟨_, rfl, rfl⟩

/-- The type is that of the part in front. -/
theorem IsPhrase.exists_type? (h : e.IsPhrase bindings) :
    ∃ t, e.type? bindings = some t ∧ t.isNullable = e.leadsNullable := by
  induction h with
  | column _ _ type | parameter _ type => exact ⟨type, rfl, rfl⟩
  | text => exact ⟨.string, rfl, rfl⟩
  | @whole value _ h =>
    cases value with
    | int | uint => exact ⟨_, rfl, rfl⟩
    | _ => cases h
  | sum _ _ ih _ =>
    obtain ⟨t, ht, hnullable⟩ := ih
    exact ⟨t, by simp [type?, ht, Operator.isComparison, Operator.isLogical], hnullable⟩
  | call hreceiver hmethod _ _ _ _ =>
    obtain ⟨t, ht, hr⟩ := Option.bind_eq_some_iff.mp hreceiver
    obtain ⟨m, hm⟩ := Option.isSome_iff_exists.mp hmethod
    obtain ⟨u, hu, hnullable⟩ := resultType?_string hm t
    exact ⟨u, by simp [type?, ht, hr, hm, hu], hnullable⟩

/-- What the lowering gives is null exactly where the expression reads a null. -/
def FollowsNulls (F : Interpretation α) (ρ : Source → Option α) (d : TypeDefaults)
    (bindings : Bindings) (e : Expr) : Prop :=
  Lowering.Gives (e.lower d bindings) fun s => s.datum? F ρ = none ↔ e.ReadsNull ρ

theorem followsNulls_constant {value : Value} (h : (Sql.raw value.literal).datum? F ρ ≠ none) :
    FollowsNulls F ρ d bindings (constant value) := by
  unfold FollowsNulls
  rw [lower]
  exact .pure (iff_of_false h (not_readsNull_of_fold? rfl))

/-- Beside an enumeration a constant may become a name, which is no null either. -/
theorem FollowsNulls.against (h : FollowsNulls F ρ d bindings e) (peer : Option ValueType) :
    Lowering.Gives (Lowering.against peer e (e.lower d bindings))
      fun s => s.datum? F ρ = none ↔ e.ReadsNull ρ := by
  refine Lowering.Gives.against h ?_
  rintro value rfl name
  exact iff_of_false (Sql.datum?_literal name) (not_readsNull_of_fold? rfl)

theorem FollowsNulls.shifted (h : FollowsNulls F ρ d bindings e) (owner : Expr) :
    Lowering.Gives (Lowering.shifted owner e (e.lower d bindings))
      fun s => s.datum? F ρ = none ↔ e.ReadsNull ρ :=
  Lowering.Gives.shifted owner h
    (fun _ hfold n => iff_of_false (Sql.datum?_number n) (not_readsNull_of_fold? hfold))
    fun i hi => (Sql.shift_eq_none i).trans hi

theorem followsNulls_sum {left right : Expr} (hleft : FollowsNulls F ρ d bindings left)
    (hright : FollowsNulls F ρ d bindings right) :
    FollowsNulls F ρ d bindings (binary .add left right) := by
  intro ps s qs hrun
  obtain ⟨x, y, rs, hx, hy, rfl⟩ := run_lower_binary (Or.inl rfl) hrun
  have hl : x.datum? F ρ = none ↔ left.ReadsNull ρ := hleft.against _ ps x rs hx
  have hr : y.datum? F ρ = none ↔ right.ReadsNull ρ := hright.against _ rs y qs hy
  rw [Sql.combine_eq_none, readsNull_binary, hl, hr]

/-- Arguments that are no selectors. -/
theorem gives_lowerArguments_nulls {call : Expr} {element : Option ValueType}
    {slots : List Lowering.Slot} (hslots : Lowering.Slot.selector ∉ slots) {arguments : List Expr}
    (h : ∀ a ∈ arguments, FollowsNulls F ρ d bindings a) :
    Lowering.Gives (lowerArguments d bindings call element slots arguments)
      fun as => (∃ a ∈ as, a.datum? F ρ = none) ↔ ∃ a ∈ arguments, a.ReadsNull ρ := by
  induction arguments generalizing slots with
  | nil =>
    unfold lowerArguments
    exact .pure (by simp)
  | cons e es ih =>
    have he := h e List.mem_cons_self
    have hrest := ih (fun hmem => hslots (List.mem_of_mem_tail hmem))
      fun a ha => h a (List.mem_cons_of_mem _ ha)
    have hhead : slots.head? ≠ some .selector := fun hsome => hslots (List.mem_of_head? hsome)
    have hcons : ∀ {x : Sql}, (x.datum? F ρ = none ↔ e.ReadsNull ρ) → Lowering.Gives
        (lowerArguments d bindings call element slots.tail es >>= fun rest => pure (x :: rest))
        fun as => (∃ a ∈ as, a.datum? F ρ = none) ↔ ∃ a ∈ e :: es, a.ReadsNull ρ := by
      intro x hx
      refine hrest.result fun rest hrest => ?_
      simp only [List.mem_cons, exists_eq_or_imp, hx, hrest]
    unfold lowerArguments
    dsimp only
    split
    · exact absurd ‹_› hhead
    · exact absurd ‹_› hhead
    · exact absurd ‹_› hhead
    · exact (he.shifted call).bind fun _ hx => hcons hx
    · exact he.bind fun _ hx => hcons hx

/-- The methods of texts take no selectors, and none of them asks for nulls. -/
theorem datum?_build {name : String} {m : Method} {signature : Lowering.Signature}
    (hm : Method.ofName? .string name = some m)
    (hsignature : Lowering.signature? m = some signature) :
    signature.onField = false ∧ Lowering.Slot.selector ∉ signature.slots ∧
      ∀ t as, (signature.build t as).datum? F ρ = none ↔
        t.datum? F ρ = none ∨ ∃ a ∈ as, a.datum? F ρ = none := by
  have hplain : ∀ {function : String} (t : Sql) (as : List Sql), function ≠ "if" →
      function ≠ "ifNull" → ((Sql.function function (t :: as)).datum? F ρ = none ↔
        t.datum? F ρ = none ∨ ∃ a ∈ as, a.datum? F ρ = none) := by
    intro function t as hif hifNull
    simp [Sql.function_eq_none hif hifNull]
  have hposition : ∀ (t : Sql) (as : List Sql),
      (Sql.binary (.function "position" (t :: as)) ">" (.raw "0")).datum? F ρ = none ↔
        t.datum? F ρ = none ∨ ∃ a ∈ as, a.datum? F ρ = none := by
    intro t as
    have hzero : (Sql.raw "0").datum? F ρ ≠ none := Sql.datum?_number 0
    rw [Sql.binary_eq_none, hplain t as (by decide) (by decide), or_iff_left hzero]
  unfold Method.ofName? at hm
  dsimp only at hm
  split at hm <;> cases hm <;> cases hsignature
  · exact ⟨rfl, by decide, hposition⟩
  all_goals exact ⟨rfl, by decide, fun t as => hplain t as (by decide) (by decide)⟩

theorem followsNulls_call {target : Expr} {method : String} {arguments : List Expr}
    (hreceiver : (target.type? bindings).bind Receiver.ofType? = some .string)
    (htarget : FollowsNulls F ρ d bindings target)
    (harguments : ∀ a ∈ arguments, FollowsNulls F ρ d bindings a) :
    FollowsNulls F ρ d bindings (call target method arguments) := by
  intro ps s qs hrun
  obtain ⟨type, r, m, signature, t, subject, rs, as, htype, hr, hm, hsignature, ht, hsubject, has,
    rfl⟩ := Lowering.run_lower_call hrun
  rw [htype, Option.bind_some, hr] at hreceiver
  cases hreceiver
  obtain ⟨hfield, hslots, hbuild⟩ := datum?_build hm hsignature
  have htext : t.datum? F ρ = none ↔ target.ReadsNull ρ := htarget ps t rs ht
  have hothers : (∃ a ∈ as, a.datum? F ρ = none) ↔ ∃ a ∈ arguments, a.ReadsNull ρ :=
    gives_lowerArguments_nulls hslots harguments rs as qs has
  rw [hbuild, hsubject hfield, htext, hothers, readsNull_call]

theorem IsPhrase.followsNulls (h : e.IsPhrase bindings) : FollowsNulls F ρ d bindings e := by
  induction h with
  | column table name type =>
    unfold FollowsNulls
    rw [lower]
    exact .pure (by rw [Sql.datum?_column, readsNull_column])
  | parameter name type =>
    unfold FollowsNulls
    rw [lower]
    exact Lowering.Gives.parameter fun hplain storeType _ => by
      rw [Sql.datum?_placeholder hplain, readsNull_parameter]
  | text s => exact followsNulls_constant (Sql.datum?_literal s)
  | @whole value n h =>
    apply followsNulls_constant
    rw [Value.literal_of_whole? h]
    exact Sql.datum?_number n
  | sum _ _ ihl ihr => exact followsNulls_sum ihl ihr
  | call hreceiver _ _ _ ih ihs => exact followsNulls_call hreceiver ih ihs

/-! ## The test for an empty text -/

/-- The test is guarded where the part in front may be null. -/
theorem run_lower_isNullOrEmpty {cls : String} (hcls : Receiver.ofClass? cls = some .string)
    (h : e.IsPhrase bindings) {s : Sql} {ps qs : List BoundParameter}
    (hrun : (e.lower d bindings).run ps = .ok (s, qs)) :
    ((function cls "IsNullOrEmpty" [e]).lower d bindings).run ps =
      .ok (.function "empty"
        [if e.leadsNullable then .function "ifNull" [s, .raw "''"] else s], qs) := by
  obtain ⟨t, ht, hnullable⟩ := h.exists_type?
  have hmethod : Method.ofName? .string "IsNullOrEmpty" = some .stringIsNullOrEmpty := rfl
  have hall : (lowerAll d bindings [e]).run ps = .ok ([s], qs) := by
    unfold lowerAll lowerAll
    exact Lowering.run_bind_eq_ok.mpr ⟨s, qs, hrun, rfl⟩
  unfold lower
  simp only [hcls, Option.bind_some, hmethod, ht, Option.map_some, Option.getD_some, hnullable]
  exact Lowering.run_bind_eq_ok.mpr ⟨[s], qs, hall, rfl⟩

/-- The test comes to a truth value whatever fits the expression exactly where its guard is
written, or where nothing may hold a null. -/
theorem isNullOrEmpty_is_never_null_iff (F : Interpretation α) {cls : String}
    (hcls : Receiver.ofClass? cls = some .string) (h : e.IsPhrase bindings) {s : Sql}
    {ps qs : List BoundParameter} (hrun : (e.lower d bindings).run ps = .ok (s, qs)) :
    ∃ test, ((function cls "IsNullOrEmpty" [e]).lower d bindings).run ps = .ok (test, qs) ∧
      ((∀ ρ, e.Fits ρ → ∃ b, test.datum? F ρ = some (F.truth b)) ↔
        e.leadsNullable = true ∨ ¬e.MayReadNull) := by
  refine ⟨_, run_lower_isNullOrEmpty hcls h hrun, ?_⟩
  have hnull : ∀ ρ, s.datum? F ρ = none ↔ e.ReadsNull ρ := fun ρ => h.followsNulls ps s qs hrun
  simp only [Sql.exists_truth_iff]
  cases hguard : e.leadsNullable with
  | true =>
    have hguarded : ∀ ρ, (Sql.function "ifNull" [s, .raw "''"]).datum? F ρ ≠ none := fun ρ =>
      Sql.ifNull_ne_none s ""
    simp [hguarded]
  | false =>
    simp only [Bool.false_eq_true, if_false, false_or, Ne, hnull]
    rw [← exists_readsNull_iff (F.literal "")]
    push Not
    rfl

/-- In front of a sum, a nullable column has the test guarded, and its null counts as empty. -/
theorem nullable_front_is_guarded :
    let e := binary .add (column none "First" (.nullable .string))
      (call (parameter "last" .string) "ToUpper" [])
    let last : BoundParameter := ⟨"last", "String"⟩
    let joined := Sql.function "concat"
      [.identifier "\"First\"", .function "upperUTF8" [.raw "\x7blast:String\x7d"]]
    let test := Sql.function "empty" [.function "ifNull" [joined, .raw "''"]]
    Receiver.ofClass? "String" = some .string ∧ e.IsPhrase [] ∧
      (e.lower {} []).run [] = .ok (joined, [last]) ∧
      ((function "String" "IsNullOrEmpty" [e]).lower {} []).run [] = .ok (test, [last]) ∧
      (∀ ρ, e.Fits ρ → ∃ b, test.datum? .onTexts ρ = some (.inr b)) ∧
      test.datum? .onTexts (fun source => if source = .parameter "last" then some (.inl "b")
        else none) = some (.inr true) := by
  intro e last joined test
  have hcls : Receiver.ofClass? "String" = some .string := by rfl
  have hphrase : e.IsPhrase [] := .sum (.column none "First" (.nullable .string))
    (.call rfl rfl (.parameter "last" .string) nofun)
  have hrun : (e.lower {} []).run [] = .ok (joined, [last]) := by rfl
  have htest : ((function "String" "IsNullOrEmpty" [e]).lower {} []).run [] = .ok (test, [last]) :=
    by rfl
  obtain ⟨written, hwritten, hnever⟩ :=
    isNullOrEmpty_is_never_null_iff .onTexts hcls hphrase hrun
  rw [htest] at hwritten
  cases hwritten
  exact ⟨hcls, hphrase, hrun, htest, hnever.mpr (Or.inl rfl), by rfl⟩

/-- Behind a method a nullable column has no guard, and its null is the test's. -/
theorem nullable_receiver_is_not_guarded :
    let e := call (column none "Name" (.nullable .string)) "ToUpper" []
    let test := Sql.function "empty" [.function "upperUTF8" [.identifier "\"Name\""]]
    e.IsPhrase [] ∧
      ((function "string" "IsNullOrEmpty" [e]).lower {} []).run [] = .ok (test, []) ∧
      ∃ ρ, e.Fits ρ ∧ test.datum? .onTexts ρ = none := by
  intro e test
  have hphrase : e.IsPhrase [] := .call rfl rfl (.column none "Name" (.nullable .string)) nofun
  refine ⟨hphrase, by rfl, fun _ => none, fun source type hreads hfilled => ?_, by rfl⟩
  rcases reads_iff.mp hreads with hsource | ⟨part, hpart, hreads⟩
  · cases hsource
  · obtain rfl := List.mem_singleton.mp hpart
    rcases reads_iff.mp hreads with hsource | ⟨_, hnone, _⟩
    · cases hsource
      cases hfilled
    · cases hnone

end Expr

end ColumnStore
