-- Which lambda parameters are in scope where. A part of an expression stands
-- under the lambdas of the collection methods around it, and under nothing else:
-- what it sees is told from its place alone, without a lowering.
import ColumnStore.Proofs.Query.Modifiers
import ColumnStore.Proofs.Query.Untranslatable

namespace ColumnStore

namespace Expr

/-! ## Places -/

/-- A lambda around a part: its parameter and the collection that the parameter ranges over. -/
structure Enclosing where
  parameter : String
  collection : Expr

/-- The lambda parameters in scope under the lambdas, the innermost first. What a collection holds
is told outside of its lambda. -/
def scopeUnder (outside : Bindings) : List Enclosing → Bindings
  | [] => outside
  | l :: around =>
    (l.parameter, (l.collection.type? (scopeUnder outside around)).bind ValueType.element?) ::
      scopeUnder outside around

/-- The part stands in the expression, under the lambdas of the collection methods around it, the
innermost first. -/
inductive Stands : Bindings → Expr → List Enclosing → Expr → Prop
  | here {outside e} : Stands outside e [] e
  | part {outside e direct around x} (hlambda : e.isLambda = false) (hdirect : direct ∈ e.parts)
      (h : Stands outside direct around x) : Stands outside e around x
  | body {outside target method arguments p body around x}
      (htakes : TakesLambda outside target method) (hbody : lambda [p] body ∈ arguments)
      (h : Stands ((p, (target.type? outside).bind ValueType.element?) :: outside) body around x) :
      Stands outside (call target method arguments) (around ++ [⟨p, target⟩]) x

variable {outside : Bindings} {e x : Expr} {around inner outer : List Enclosing} {name : String}

theorem scopeUnder_append (outside : Bindings) (inner outer : List Enclosing) :
    scopeUnder outside (inner ++ outer) = scopeUnder (scopeUnder outside outer) inner := by
  induction inner with
  | nil => rfl
  | cons l inner ih => rw [List.cons_append, scopeUnder, scopeUnder, ih]

/-! ## What is in scope -/

/-- Lambdas with other parameters do not matter. -/
theorem lookup_scopeUnder_of_ne (outside : Bindings) (h : ∀ l ∈ inner, l.parameter ≠ name) :
    (scopeUnder outside inner).lookup name = outside.lookup name := by
  induction inner with
  | nil => rfl
  | cons l inner ih =>
    obtain ⟨hl, hinner⟩ := List.forall_mem_cons.mp h
    have hother : (name == l.parameter) = false := by simpa using hl.symm
    rw [scopeUnder, List.lookup_cons, hother]
    exact ih hinner

/-- The innermost lambda with the name says what the name ranges over. -/
theorem lookup_scopeUnder_of_innermost (outside : Bindings) (outer : List Enclosing) (l : Enclosing)
    (h : ∀ other ∈ inner, other.parameter ≠ l.parameter) :
    (scopeUnder outside (inner ++ l :: outer)).lookup l.parameter =
      some ((l.collection.type? (scopeUnder outside outer)).bind ValueType.element?) := by
  rw [scopeUnder_append, lookup_scopeUnder_of_ne _ h, scopeUnder, List.lookup_cons_self]

theorem map_scopeUnder (outside : Bindings) (around : List Enclosing) :
    (scopeUnder outside around).map (·.1) =
      around.map Enclosing.parameter ++ outside.map (·.1) := by
  induction around with
  | nil => rfl
  | cons l around ih => rw [scopeUnder, List.map_cons, ih, List.map_cons, List.cons_append]

/-- A lambda around a part binds the name, or it was bound outside. -/
def IsBound (outside : Bindings) (around : List Enclosing) (name : String) : Prop :=
  name ∈ around.map Enclosing.parameter ∨ name ∈ outside.map (·.1)

theorem isSome_lookup_scopeUnder_iff :
    ((scopeUnder outside around).lookup name).isSome = true ↔ IsBound outside around name := by
  unfold IsBound
  rw [← List.mem_append, ← map_scopeUnder, ← not_iff_not, Bool.not_eq_true,
    Option.isSome_eq_false_iff, Option.isNone_iff_eq_none, List.lookup_eq_none_iff]
  simp only [bne_iff_ne, List.mem_map, not_exists, not_and, ne_comm (a := name), ne_eq]

/-! ## What stands in an expression -/

/-- The collection of a lambda around a part stands outside of that lambda. -/
theorem Stands.collection {l : Enclosing} (h : Stands outside e (inner ++ l :: outer) x) :
    Stands outside e outer l.collection := by
  generalize haround : inner ++ l :: outer = around at h
  induction h generalizing outer with
  | here => exact absurd haround (by simp)
  | part hlambda hdirect _ ih => exact .part hlambda hdirect (ih haround)
  | @body outside target method arguments p body around x htakes hbody h ih =>
    rcases List.eq_nil_or_concat outer with rfl | ⟨outer, last, rfl⟩
    · obtain ⟨_, hl⟩ := List.append_inj' haround rfl
      cases hl
      exact .part rfl List.mem_cons_self .here
    · rw [List.concat_eq_append, ← List.cons_append, ← List.append_assoc] at haround
      obtain ⟨haround, hlast⟩ := List.append_inj' haround rfl
      rw [List.concat_eq_append, hlast]
      exact .body htakes hbody (ih haround)

theorem isPart_of_mem_parts {direct : Expr} (hdirect : direct ∈ e.parts)
    (he : e.isLambda = false) (hpart : direct.isLambda = false) :
    IsPart (outside, direct) (outside, e) := by
  cases e with
  | lambda => cases he
  | call target method arguments =>
    rcases List.mem_cons.mp hdirect with rfl | hmem
    · exact .receiver
    · exact .argument hmem fun hlambda => absurd (hpart.symm.trans hlambda) Bool.false_ne_true
  | function => exact .operand hdirect
  | binary =>
    rcases List.mem_pair.mp hdirect with rfl | rfl
    · exact .left
    · exact .right
  | index =>
    rcases List.mem_pair.mp hdirect with rfl | rfl
    · exact .indexed
    · exact .index
  | coalesce =>
    rcases List.mem_pair.mp hdirect with rfl | rfl
    · exact .preferred
    · exact .fallback
  | conditional =>
    rcases List.mem_cons.mp hdirect with rfl | hmem
    · exact .test
    · rcases List.mem_pair.mp hmem with rfl | rfl
      · exact .whenTrue
      · exact .whenFalse
  | not | negate | member | jsonPath | convert =>
    obtain rfl := List.mem_singleton.mp hdirect
    constructor
  | column | constant | parameter | var | foreign => cases hdirect

/-- In a lambda that is no collection method's own nothing stands. -/
theorem Stands.eq_of_isLambda (h : Stands outside e around x) (he : e.isLambda = true) :
    x = e := by
  cases h with
  | here => rfl
  | part hlambda => exact absurd (hlambda.symm.trans he) Bool.false_ne_true
  | body => cases he

theorem Stands.occurs (h : Stands outside e around x) (hx : x.isLambda = false) :
    Occurs (scopeUnder outside around, x) (outside, e) := by
  induction h with
  | here => exact .refl
  | @part outside e direct around x hlambda hdirect h ih =>
    cases hpart : direct.isLambda with
    | false => exact (ih hx).tail (isPart_of_mem_parts hdirect hlambda hpart)
    | true =>
      rw [h.eq_of_isLambda hpart, hpart] at hx
      cases hx
  | @body outside target method arguments p body around x htakes hbody _ ih =>
    rw [scopeUnder_append]
    exact (ih hx).tail (.selection hbody htakes)

/-- The type of a bound name is that of the elements of the innermost collection whose lambda binds
it, told outside of that lambda. -/
theorem type?_var_of_innermost (outside : Bindings) (outer : List Enclosing) (l : Enclosing)
    (h : ∀ other ∈ inner, other.parameter ≠ l.parameter) :
    (var l.parameter).type? (scopeUnder outside (inner ++ l :: outer)) =
      (l.collection.type? (scopeUnder outside outer)).bind ValueType.element? := by
  rw [type?, lookup_scopeUnder_of_innermost outside outer l h]
  rfl

/-- A name that is not bound where it stands stops the whole lowering. -/
theorem Stands.fails_of_not_isBound (h : Stands outside e around (var name))
    (hname : ¬IsBound outside around name) (d : TypeDefaults) :
    Lowering.Fails (e.lower d outside) := by
  have hlookup : (scopeUnder outside around).lookup name = none := by
    rwa [← isSome_lookup_scopeUnder_iff, Bool.not_eq_true, Option.isSome_eq_false_iff,
      Option.isNone_iff_eq_none] at hname
  have hstuck : Stuck d (scopeUnder outside around, var name) :=
    Untranslatable.stuck (.unbound hlookup)
  exact (hstuck.of_occurs (h.occurs rfl)).fails

/-! ## Scopes -/

/-- The expression stands in the other one, and the bindings are those in scope there. -/
def IsLexical (outside : Bindings) (e : Expr) (x : Scoped) : Prop :=
  ∃ around, Stands outside e around x.2 ∧ x.1 = scopeUnder outside around

theorem isLexical_self (outside : Bindings) (e : Expr) : IsLexical outside e (outside, e) :=
  ⟨[], .here, rfl⟩

theorem IsLexical.part {direct : Expr} {x : Scoped} (h : IsLexical outside direct x)
    (he : e.isLambda = false) (hdirect : direct ∈ e.parts) : IsLexical outside e x := by
  obtain ⟨around, hstands, hscope⟩ := h
  exact ⟨around, .part he hdirect hstands, hscope⟩

theorem IsLexical.body {target body : Expr} {method p : String} {arguments : List Expr} {x : Scoped}
    (h : IsLexical ((p, (target.type? outside).bind ValueType.element?) :: outside) body x)
    (htakes : TakesLambda outside target method) (hbody : lambda [p] body ∈ arguments) :
    IsLexical outside (call target method arguments) x := by
  obtain ⟨around, hstands, hscope⟩ := h
  refine ⟨around ++ [⟨p, target⟩], .body htakes hbody hstands, ?_⟩
  rw [hscope, scopeUnder_append]
  rfl

end Expr

end ColumnStore
