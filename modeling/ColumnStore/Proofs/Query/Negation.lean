-- Minus signs in the text of a query. A negation stands right before its
-- operand, so two minus signs meet exactly where the operand's text begins
-- with one, and two of them open a comment.
import ColumnStore.Proofs.Query.Success
import ColumnStore.Proofs.Types.RoundTrip
import ColumnStore.Proofs.Value.Literal

namespace ColumnStore

open ColumnStore.Text

namespace Sql

/-! ## Minus signs in a tree -/

/-- Whether the text begins with a minus sign. -/
def leadsMinus : Sql → Bool
  | raw text => leads text.toList
  | negate _ => true
  | binary left _ _ => !left.needsParens && left.leadsMinus
  | isNull operand _ => !operand.needsParens && operand.leadsMinus
  | subcolumn base _ => !base.needsParens && base.leadsMinus
  | subscript target _ => !target.needsParens && target.leadsMinus
  | identifier _ | var _ | function _ _ | not _ | lambda _ _ | cast _ _ => false

mutual

/-- Whether the minus sign of a negation stands right before another one. -/
def stacksMinus : Sql → Bool
  | function _ arguments => stacksMinusAny arguments
  | binary left _ right => left.stacksMinus || right.stacksMinus
  | not operand => operand.stacksMinus
  | negate operand => !operand.needsParens && operand.leadsMinus || operand.stacksMinus
  | isNull operand _ => operand.stacksMinus
  | subcolumn base _ => base.stacksMinus
  | subscript target index => target.stacksMinus || index.stacksMinus
  | lambda _ body => body.stacksMinus
  | cast operand _ => operand.stacksMinus
  | identifier _ | raw _ | var _ => false

def stacksMinusAny : List Sql → Bool
  | [] => false
  | s :: ss => s.stacksMinus || stacksMinusAny ss

end

theorem stacksMinusAny_eq_any (ss : List Sql) : stacksMinusAny ss = ss.any stacksMinus := by
  induction ss with
  | nil => rfl
  | cons s ss ih => rw [stacksMinusAny, ih, List.any_cons]

theorem renderAll_eq_map (ss : List Sql) : renderAll ss = ss.map render := by
  induction ss with
  | nil => rfl
  | cons s ss ih => rw [renderAll, ih, List.map_cons]

/-- A tree whose leaves close their quotes and hold no comment. -/
inductive Complete : Sql → Prop
  | identifier {text : String} (h : Settled text.toList) : Complete (.identifier text)
  | raw {text : String} (h : Quiet text.toList) : Complete (.raw text)
  | var {name : String} (h : isPlainName name = true) : Complete (.var name)
  | function {name : String} {arguments : List Sql} (hname : isPlainName name = true)
      (h : ∀ s ∈ arguments, Complete s) : Complete (.function name arguments)
  | binary {left right : Sql} (op : Operator) (hleft : Complete left) (hright : Complete right) :
      Complete (.binary left op.symbol right)
  | not {operand : Sql} (h : Complete operand) : Complete (.not operand)
  | negate {operand : Sql} (h : Complete operand) : Complete (.negate operand)
  | isNull {operand : Sql} {negated : Bool} (h : Complete operand) :
      Complete (.isNull operand negated)
  | subcolumn {base : Sql} {key : String} (h : Complete base) (hkey : Settled key.toList) :
      Complete (.subcolumn base key)
  | subscript {target index : Sql} (h : Complete target) (hindex : Complete index) :
      Complete (.subscript target index)
  | lambda {p : String} {body : Sql} (hp : isPlainName p = true) (h : Complete body) :
      Complete (.lambda [p] body)
  | cast {operand : Sql} {typeName : String} (h : Complete operand)
      (htype : Settled typeName.toList) : Complete (.cast operand typeName)

/-! ## Minus signs in its text -/

/-- Parentheses around an operand hide a minus sign that it begins with. -/
theorem reads_operand {s : Sql} (h : Reads s.render.toList s.leadsMinus s.stacksMinus) :
    Reads (parenthesised s.needsParens s.render).toList (!s.needsParens && s.leadsMinus)
      s.stacksMinus := by
  cases s.needsParens with
  | false => exact h
  | true =>
    have htext : (parenthesised true s.render).toList = ['('] ++ (s.render.toList ++ [')']) := by
      simp [parenthesised]
    rw [htext]
    exact h.toPasses.between _ _ (by decide) (by decide) (by decide)

theorem passes_operator (op : Operator) : Passes (" " ++ op.symbol ++ " ").toList false := by
  cases op <;> exact ⟨by decide, by decide⟩

/-- The text of a complete tree has its minus signs where the tree has them. -/
theorem reads_render {s : Sql} (h : s.Complete) :
    Reads s.render.toList s.leadsMinus s.stacksMinus := by
  induction h with
  | identifier h => exact h
  | raw h => exact h
  | var h => exact settled_plainName h
  | @function name arguments hname _ ih =>
    have hpasses : Passes (", ".intercalate (renderAll arguments)).toList
        (stacksMinusAny arguments) := by
      rw [String.toList_intercalate, renderAll_eq_map, List.map_map, stacksMinusAny_eq_any]
      exact passes_intercalate fun s hs => (ih s hs).toPasses
    have htext : (render (.function name arguments)).toList =
        name.toList ++ (['('] ++ ((", ".intercalate (renderAll arguments)).toList ++ [')'])) := by
      simp [render]
    have hbrackets := hpasses.between ['('] [')'] (by decide) (by decide) (by decide)
    rw [htext, leadsMinus, stacksMinus, ← Bool.false_or (stacksMinusAny arguments)]
    exact (settled_plainName hname).append hbrackets.toPasses
  | @binary left right op _ _ ihl ihr =>
    have htext : (render (.binary left op.symbol right)).toList =
        (parenthesised left.needsParens left.render).toList ++
          ((" " ++ op.symbol ++ " ").toList ++
            (parenthesised right.needsParens right.render).toList) := by
      simp [render]
    have hright := (passes_operator op).append (reads_operand ihr).toPasses
    rw [Bool.false_or] at hright
    rw [htext]
    exact (reads_operand ihl).append hright
  | @not operand _ ih =>
    have hword : Settled "NOT ".toList := settled_unmarked (by decide) (by decide)
    rw [render, String.toList_append, leadsMinus, stacksMinus, ← Bool.false_or operand.stacksMinus]
    exact hword.append (reads_operand ih).toPasses
  | negate _ ih =>
    rw [render, String.toList_append]
    exact (reads_operand ih).minus
  | @isNull operand negated _ ih =>
    have hwords : Passes (if negated then " IS NOT NULL" else " IS NULL").toList false := by
      cases negated <;> exact passes_unmarked (by decide)
    rw [render, String.toList_append, stacksMinus, ← Bool.or_false operand.stacksMinus]
    exact (reads_operand ih).append hwords
  | @subcolumn base key _ hkey ih =>
    have hdot : Passes ".".toList false := passes_unmarked (by decide)
    have hrest := hdot.append hkey.toPasses
    rw [render, String.toList_append, String.toList_append, List.append_assoc, stacksMinus,
      ← Bool.or_false base.stacksMinus]
    exact (reads_operand ih).append hrest
  | @subscript target index _ _ ih ihindex =>
    have htext : (render (.subscript target index)).toList =
        (parenthesised target.needsParens target.render).toList ++
          (['['] ++ (index.render.toList ++ [']'])) := by
      simp [render]
    have hindex := ihindex.toPasses.between ['['] [']'] (by decide) (by decide) (by decide)
    rw [htext]
    exact (reads_operand ih).append hindex.toPasses
  | @lambda p body hp _ ih =>
    have harrow : Passes " -> ".toList false := ⟨by decide, by decide⟩
    have hbody := harrow.append ih.toPasses
    rw [Bool.false_or] at hbody
    rw [render, String.toList_append, String.toList_append, List.append_assoc, leadsMinus,
      stacksMinus, ← Bool.false_or body.stacksMinus]
    exact (settled_plainName hp).append hbody
  | @cast operand typeName _ htype ih =>
    have htext : (render (.cast operand typeName)).toList =
        "CAST(".toList ++ (operand.render.toList ++ (" AS ".toList ++
          (typeName.toList ++ [')']))) := by
      simp [render]
    have hopening : Settled "CAST(".toList := settled_unmarked (by decide) (by decide)
    have has : Passes " AS ".toList false := passes_unmarked (by decide)
    have hclosing : Passes [')'] false := passes_unmarked (by decide)
    have hrest := ih.toPasses.append (has.append (htype.toPasses.append hclosing))
    rw [Bool.or_false, Bool.false_or, Bool.or_false] at hrest
    rw [htext, leadsMinus, stacksMinus, ← Bool.false_or operand.stacksMinus]
    exact hopening.append hrest

end Sql

/-! ## Column types -/

namespace StoreType

theorem settled_applied {name : String} {args : List String} (hname : isPlainName name = true)
    (hargs : ∀ a ∈ args, Passes a.toList false) : Settled (applied name args).toList := by
  have hword := settled_plainName hname
  by_cases hempty : args = []
  · subst hempty
    exact hword
  · have hjoined : Passes (TypeText.joined (args.map String.toList)) false := by
      have hall := passes_intercalate hargs
      rwa [List.any_eq_false.mpr fun _ _ => Bool.false_ne_true] at hall
    rw [TypeText.toList_applied hempty]
    exact hword.append (hjoined.between ['('] _ (by decide) (by decide) (by decide)).toPasses

theorem settled_wrapped {name inner : String} (hname : isPlainName name = true)
    (h : Settled inner.toList) : Settled (applied name [inner]).toList := by
  refine settled_applied hname fun a ha => ?_
  rw [List.mem_singleton.mp ha]
  exact h.toPasses

theorem passes_scalarArgument {a : String} (h : IsScalarArgument a) : Passes a.toList false := by
  rcases h with h | ⟨s, rfl⟩
  · apply passes_unmarked
    rw [List.all_eq_true]
    intro c hc
    rcases h c hc with hname | rfl
    · exact isUnmarked_of_isNameChar hname
    · decide
  · exact (settled_literal s).toPasses

theorem passes_memberText (m : EnumMember) : Passes (memberText m).toList false := by
  have hequals : Passes " = ".toList false := passes_unmarked (by decide)
  rw [memberText, String.toList_append, String.toList_append]
  exact ((settled_literal m.name).toPasses.append hequals).append
    (Number.quiet_int m.code.toInt).toPasses

/-- The text of a column type opens no comment where its record fields have plain names. -/
theorem settled_render {member : String → Prop} {t : StoreType}
    (h : t.WellFormed member (isPlainName · = true)) : Settled t.render.toList := by
  induction h with
  | scalar plain _ written =>
    exact settled_applied plain fun a ha => passes_scalarArgument (written a ha)
  | @enumeration width members _ _ _ =>
    rw [render]
    refine settled_applied (by cases width <;> decide) fun a ha => ?_
    obtain ⟨m, _, rfl⟩ := List.mem_map.mp ha
    exact passes_memberText m
  | array _ ih => exact settled_wrapped (by decide) ih
  | @map key value _ _ _ ihkey ihvalue =>
    refine settled_applied (by decide) fun a ha => ?_
    rcases List.mem_cons.mp ha with rfl | ha
    · exact ihkey.toPasses
    · rw [List.mem_singleton.mp ha]
      exact ihvalue.toPasses
  | @tuple items _ _ ih =>
    rw [render, renderAll_eq_map]
    refine settled_applied (by decide) fun a ha => ?_
    obtain ⟨t, ht, rfl⟩ := List.mem_map.mp ha
    exact (ih t ht).toPasses
  | @nested fields _ named _ ih =>
    rw [render, renderFields_eq_map]
    refine settled_applied (by decide) fun a ha => ?_
    obtain ⟨f, hf, rfl⟩ := List.mem_map.mp ha
    have hblank : Passes [' '] false := passes_unmarked (by decide)
    rw [TypeText.toList_fieldText]
    exact (settled_plainName (named f hf)).toPasses.append (hblank.append (ih f hf).toPasses)
  | nullable _ _ _ ih => exact settled_wrapped (by decide) ih
  | lowCardinality _ ih => exact settled_wrapped (by decide) ih

end StoreType

/-- The text of a column type that a value type resolves to. -/
theorem settled_resolve {d : TypeDefaults} {o : TypeOptions} {t : ValueType} {text : String}
    (hfields : ∀ n ∈ t.fieldNames, isPlainName n = true) (h : d.resolve o t = .ok text) :
    Settled text.toList := by
  obtain ⟨c, hc, htext⟩ := Outcome.bind_eq_ok.mp h
  cases htext
  have hstores : StoreType.Stores (fun _ => True) (isPlainName · = true) c.storeType _ :=
    TypeDefaults.stores_columnType (fun _ _ => trivial) hfields hc
  exact StoreType.settled_render hstores.wellFormed

/-! ## What is lowered -/

namespace Expr

mutual

/-- The types that are written into the text: those of parameters and of conversions. -/
def writtenTypes : Expr → List ValueType
  | column _ _ _ => []
  | constant _ => []
  | parameter _ type => [type]
  | var _ => []
  | lambda _ body => body.writtenTypes
  | binary _ left right => left.writtenTypes ++ right.writtenTypes
  | not operand => operand.writtenTypes
  | negate operand => operand.writtenTypes
  | member target _ => target.writtenTypes
  | call target _ arguments => target.writtenTypes ++ writtenTypesAll arguments
  | function _ _ arguments => writtenTypesAll arguments
  | index target position => target.writtenTypes ++ position.writtenTypes
  | jsonPath target _ => target.writtenTypes
  | conditional test whenTrue whenFalse =>
    test.writtenTypes ++ (whenTrue.writtenTypes ++ whenFalse.writtenTypes)
  | coalesce left right => left.writtenTypes ++ right.writtenTypes
  | convert operand type => type :: operand.writtenTypes
  | foreign _ => []

def writtenTypesAll : List Expr → List ValueType
  | [] => []
  | e :: es => e.writtenTypes ++ writtenTypesAll es

end

end Expr

namespace Lowering

open Sql (Complete)

variable {d : TypeDefaults} {s : Sql}

/-- The record fields of the type have plain names. -/
def HasPlainFields (t : ValueType) : Prop := ∀ n ∈ t.fieldNames, isPlainName n = true

theorem complete_call {name : String} (hname : isPlainName name = true) (h : Complete s) :
    Complete (.function name [s]) := by
  refine .function hname fun a ha => ?_
  rwa [List.mem_singleton.mp ha]

theorem complete_rawInt (n : Int) : Complete (.raw (toString n)) := .raw (Number.quiet_int n)

theorem gives_parameter {e : Expr} {name : String} {type : ValueType} (h : HasPlainFields type) :
    Gives (parameter d e name type) Complete := by
  refine Gives.parameter fun hname text htext => .raw ?_
  have htoken : (placeholder name text).toList =
      ['\x7b'] ++ (name.toList ++ ([':'] ++ text.toList) ++ ['\x7d']) := by
    simp [placeholder]
  have hcolon : Passes [':'] false := passes_unmarked (by decide)
  have htype := hcolon.append (settled_resolve h htext).toPasses
  have hinner := (settled_plainName hname).append htype
  rw [htoken]
  exact (hinner.toPasses.between _ _ (by decide) (by decide) (by decide)).quiet

theorem gives_boundVar (e : Expr) {bindings : Bindings}
    (hb : ∀ x ∈ bindings, isPlainName x.1 = true) (name : String) :
    Gives (boundVar e bindings name) Complete := by
  unfold boundVar
  split
  · rename_i hbound
    obtain ⟨type, hlookup⟩ := Option.isSome_iff_exists.mp hbound
    obtain ⟨inner, outer, rfl, _⟩ := List.lookup_eq_some_iff.mp hlookup
    exact .pure (.var (hb (name, type) (List.mem_append_right _ List.mem_cons_self)))
  · exact Gives.refuse _ _

theorem gives_shiftedConstant (e : Expr) (i : Int64) : Gives (shiftedConstant e i) Complete :=
  Gives.shiftedConstant e i complete_rawInt

theorem gives_shifted {e index : Expr} {lowered : Lowering Sql} (h : Gives lowered Complete) :
    Gives (shifted e index lowered) Complete := by
  refine Gives.shifted e h (fun _ _ => complete_rawInt) fun i hi => ?_
  have hzero : Complete (.raw "0") := complete_rawInt 0
  have hone : Complete (.raw "1") := complete_rawInt 1
  apply Complete.function (by decide)
  simpa using ⟨.binary .ge hi hzero, .binary .add hi hone, hi⟩

theorem gives_against {peer : Option ValueType} {operand : Expr} {lowered : Lowering Sql}
    (h : Gives lowered Complete) : Gives (against peer operand lowered) Complete :=
  Gives.against h fun _ _ _ => .raw (settled_literal _).quiet

theorem complete_combine {op : Operator} {leftType rightType : Option ValueType} {l r : Sql}
    (hl : Complete l) (hr : Complete r) : Complete (combine op leftType rightType l r) := by
  unfold combine
  dsimp only
  split
  · exact Complete.function (by decide) (by simpa using ⟨hl, hr⟩)
  · split
    · exact Complete.function (by decide) (by simpa using ⟨hl, hr⟩)
    · exact .binary op hl hr

theorem gives_fieldArray (e target : Expr) (field : Option String) :
    Gives (fieldArray e target field) Complete := by
  unfold fieldArray
  split
  · split
    · split
      · exact .pure (.identifier (settled_qualifiedName _ _))
      · exact Gives.refuse _ _
    · exact Gives.refuse _ _
  · exact Gives.refuse _ _

theorem gives_memberOf {e target : Expr} (m : Member) {t : Sql} (ht : Complete t) :
    Gives (memberOf e target m t) Complete := by
  cases m with
  | nestedCount => exact (gives_fieldArray e target none).result fun a ha => complete_call (by decide) ha
  | arrayLength => exact .pure (complete_call (by decide) ht)
  | mapCount => exact .pure (complete_call (by decide) (complete_call (by decide) ht))
  | mapKeys => exact .pure (complete_call (by decide) ht)
  | mapValues => exact .pure (complete_call (by decide) ht)
  | stringLength => exact .pure (complete_call (by decide) ht)
  | datePart part =>
    have hseven : Complete (.raw "7") := complete_rawInt 7
    cases part with
    | dayOfWeek => exact .pure (.binary .mod (complete_call (by decide) ht) hseven)
    | _ => exact .pure (complete_call (by decide) ht)

theorem complete_plain {name : String} {slots : List Slot} {t : Sql} {arguments : List Sql}
    (hname : isPlainName name = true) (ht : Complete t) (ha : ∀ a ∈ arguments, Complete a) :
    Complete ((Signature.plain name slots).build t arguments) :=
  Complete.function hname (by simpa using ⟨ht, ha⟩)

theorem complete_selecting {required : Nat} {name : String} {bare : Sql → Sql} {t : Sql}
    {arguments : List Sql} (hname : isPlainName name = true) (ht : Complete t)
    (hbare : Complete (bare t)) (ha : ∀ a ∈ arguments, Complete a) :
    Complete ((Signature.selecting required name bare).build t arguments) := by
  unfold Signature.selecting
  dsimp only
  split
  · exact hbare
  · refine Complete.function hname fun a hmem => ?_
    rcases List.mem_append.mp hmem with hmem | hmem
    · exact ha a hmem
    · rwa [List.mem_singleton.mp hmem]

/-- The SQL of a method is complete where its subject and its arguments are. -/
theorem complete_build {m : Method} {signature : Signature} (h : signature? m = some signature)
    {t : Sql} (ht : Complete t) {arguments : List Sql} (ha : ∀ a ∈ arguments, Complete a) :
    Complete (signature.build t arguments) := by
  have helement : ∀ {index}, Complete (.raw index) →
      Complete (.function "arrayElement" [t, .raw index]) :=
    fun hindex => Complete.function (by decide) (by simpa using ⟨ht, hindex⟩)
  cases m
  case arrayAny =>
    cases h
    exact complete_selecting (by decide) ht (complete_call (by decide) ht) ha
  case arrayAll | arrayWhere | arraySelect =>
    cases h
    exact complete_selecting (by decide) ht ht ha
  case arrayFirst =>
    cases h
    exact complete_selecting (by decide) ht (helement (complete_rawInt 1)) ha
  case arrayLast =>
    have hlast : Complete (.raw "-1") := .raw ⟨⟨by decide, by decide⟩, by decide, rfl⟩
    cases h
    exact complete_selecting (by decide) ht (helement hlast) ha
  case arrayCount | arraySum | arrayMin | arrayMax =>
    cases h
    exact complete_selecting (by decide) ht (complete_call (by decide) ht) ha
  case mapContainsValue =>
    cases h
    exact Complete.function (by decide) (by simpa using ⟨complete_call (by decide) ht, ha⟩)
  case mapCount =>
    cases h
    exact complete_call (by decide) (complete_call (by decide) ht)
  case nestedAny | nestedCount =>
    cases h
    exact complete_call (by decide) ht
  case stringContains =>
    cases h
    exact .binary .gt (Complete.function (by decide) (by simpa using ⟨ht, ha⟩)) (complete_rawInt 0)
  case stringSubstring =>
    cases h
    exact Complete.function (by decide) (by simpa using ⟨ht, ha⟩)
  case dateAdd unit =>
    cases h
    exact complete_plain (by cases unit <;> decide) ht ha
  case stringIsNullOrEmpty | mathAbs | mathRound | mathFloor | mathCeiling | mathMax | mathMin =>
    cases h
  all_goals
    cases h
    exact complete_plain (by decide) ht ha

theorem gives_staticCall {e : Expr} {m : Method} {nullable : Bool} {arguments : List Sql}
    (ha : ∀ a ∈ arguments, Complete a) :
    Gives (staticCall e m nullable arguments) Complete := by
  unfold staticCall
  split
  · split
    · rename_i value
      have hvalue : Complete value := ha value (List.mem_singleton_self value)
      have hempty : Complete (.raw "''") := .raw (settled_literal "").quiet
      refine .pure (Complete.function (by decide) ?_)
      cases nullable
      · simpa using hvalue
      · simpa using Complete.function (by decide) (by simpa using ⟨hvalue, hempty⟩)
    · exact Gives.refuse _ _
  · split
    · exact Gives.refuse _ _
    · rename_i name counts hm
      split
      · refine .pure (Complete.function ?_ ha)
        cases m <;> cases hm <;> decide
      · exact Gives.refuse _ _

theorem complete_indexed {r : Receiver} {target index : Sql} (ht : Complete target)
    (hi : Complete index) : Complete (indexed r target index) := by
  unfold indexed
  split
  · exact Complete.function (by decide) (by simpa using ⟨ht, hi⟩)
  · have hone : Complete (.raw "1") := complete_rawInt 1
    exact Complete.function (by decide) (by simpa using ⟨ht, hi, hone⟩)
  · exact .subscript ht hi

theorem gives_alongPath (e : Expr) (path : List JsonSegment) {base : Sql} (h : Complete base) :
    Gives (alongPath e base path) Complete := by
  induction path generalizing base with
  | nil => exact .pure h
  | cons segment path ih =>
    cases segment with
    | key name => exact ih (.subcolumn h (settled_quoteName name))
    | index i => exact (gives_shiftedConstant e i).bind fun s hs => ih (.subscript h hs)

end Lowering

open Lowering
open Sql (Complete)

mutual

/-- A lowered expression is a complete tree where the types in it have plain field names. -/
theorem Expr.gives_lower (d : TypeDefaults) (bindings : Bindings)
    (hb : ∀ x ∈ bindings, isPlainName x.1 = true) : (e : Expr) →
    (∀ t ∈ e.writtenTypes, HasPlainFields t) → Gives (e.lower d bindings) Complete
  | .column table name _, _ => by
    unfold Expr.lower
    exact .pure (.identifier (settled_qualifiedName table name))
  | .constant value, _ => by
    unfold Expr.lower
    exact .pure (.raw value.quiet_literal)
  | .parameter name type, h => by
    unfold Expr.writtenTypes at h
    unfold Expr.lower
    exact gives_parameter (h type (List.mem_singleton_self type))
  | .var name, _ => by
    unfold Expr.lower
    exact gives_boundVar _ hb name
  | .lambda _ _, _ => by
    unfold Expr.lower
    exact Gives.refuse _ _
  | .binary op left right, h => by
    unfold Expr.writtenTypes at h
    have hl := left.gives_lower d bindings hb fun t ht => h t (List.mem_append_left _ ht)
    have hr := right.gives_lower d bindings hb fun t ht => h t (List.mem_append_right _ ht)
    unfold Expr.lower
    split
    · exact hl.result fun _ hs => .isNull hs
    · split
      · exact hr.result fun _ hs => .isNull hs
      · exact (gives_against hl).bind fun l hl => (gives_against hr).result fun r hr =>
          complete_combine hl hr
  | .not operand, h => by
    unfold Expr.writtenTypes at h
    unfold Expr.lower
    exact (operand.gives_lower d bindings hb h).result fun _ hs => .not hs
  | .negate operand, h => by
    unfold Expr.writtenTypes at h
    unfold Expr.lower
    exact (operand.gives_lower d bindings hb h).result fun _ hs => .negate hs
  | .member target name, h => by
    unfold Expr.writtenTypes at h
    have ht := target.gives_lower d bindings hb h
    unfold Expr.lower
    refine Gives.after fun (r, type) => ?_
    dsimp only
    split
    · exact ht.result fun _ hs => .subcolumn hs (settled_quoteName name)
    · split
      · exact gives_fieldArray _ target _
      · split
        · exact Gives.refuse _ _
        · exact ht.bind fun _ hs => gives_memberOf _ hs
  | .call target method arguments, h => by
    unfold Expr.writtenTypes at h
    have ht := target.gives_lower d bindings hb fun t ht => h t (List.mem_append_left _ ht)
    have ha := fun e element slots => gives_lowerArguments d bindings hb e element slots arguments
      fun t ht => h t (List.mem_append_right _ ht)
    unfold Expr.lower
    refine Gives.after fun (r, type) => ?_
    dsimp only
    split
    · exact Gives.refuse _ _
    · split
      · exact Gives.after fun _ => Gives.refuse _ _
      · rename_i signature hsignature
        split
        · exact Gives.after fun _ => Gives.refuse _ _
        · refine ht.bind fun t ht => ?_
          split
          · exact (gives_fieldArray _ target none).bind fun subject hsubject =>
              (ha _ _ _).result fun _ hargs => complete_build hsignature hsubject hargs
          · exact (ha _ _ _).result fun _ hargs => complete_build hsignature ht hargs
  | .function cls name arguments, h => by
    unfold Expr.writtenTypes at h
    have ha := gives_lowerAll d bindings hb arguments h
    unfold Expr.lower
    dsimp only
    split
    · exact Gives.refuse _ _
    · exact ha.bind fun _ hargs => gives_staticCall hargs
  | .index target index, h => by
    unfold Expr.writtenTypes at h
    have ht := target.gives_lower d bindings hb fun t ht => h t (List.mem_append_left _ ht)
    have hi := index.gives_lower d bindings hb fun t ht => h t (List.mem_append_right _ ht)
    unfold Expr.lower
    refine Gives.after fun (r, type) => ?_
    dsimp only
    split
    iterate 3
      exact (gives_shifted hi).bind fun _ hi => ht.result fun _ ht => complete_indexed ht hi
    · exact ht.bind fun _ ht => hi.result fun _ hi => complete_indexed ht hi
    · exact Gives.refuse _ _
  | .jsonPath target path, h => by
    unfold Expr.writtenTypes at h
    have ht := target.gives_lower d bindings hb h
    unfold Expr.lower
    split
    · exact ht.bind fun _ ht => gives_alongPath _ path ht
    · exact Gives.refuse _ _
  | .conditional test whenTrue whenFalse, h => by
    unfold Expr.writtenTypes at h
    have htest := test.gives_lower d bindings hb fun t ht => h t (List.mem_append_left _ ht)
    have htrue := whenTrue.gives_lower d bindings hb fun t ht =>
      h t (List.mem_append_right _ (List.mem_append_left _ ht))
    have hfalse := whenFalse.gives_lower d bindings hb fun t ht =>
      h t (List.mem_append_right _ (List.mem_append_right _ ht))
    unfold Expr.lower
    exact htest.bind fun _ h1 => htrue.bind fun _ h2 => hfalse.result fun _ h3 =>
      Complete.function (by decide) (by simpa using ⟨h1, h2, h3⟩)
  | .coalesce left right, h => by
    unfold Expr.writtenTypes at h
    have hl := left.gives_lower d bindings hb fun t ht => h t (List.mem_append_left _ ht)
    have hr := right.gives_lower d bindings hb fun t ht => h t (List.mem_append_right _ ht)
    unfold Expr.lower
    exact hl.bind fun _ h1 => hr.result fun _ h2 =>
      Complete.function (by decide) (by simpa using ⟨h1, h2⟩)
  | .convert operand type, h => by
    unfold Expr.writtenTypes at h
    have hoperand := operand.gives_lower d bindings hb fun t ht => h t (List.mem_cons_of_mem _ ht)
    have htype := h type List.mem_cons_self
    unfold Expr.lower
    exact hoperand.bind fun _ hs => Gives.result (Gives.liftM fun _ => id) fun _ htext =>
      .cast hs (settled_resolve htype htext)
  | .foreign _, _ => by
    unfold Expr.lower
    exact Gives.refuse _ _

theorem gives_lowerAll (d : TypeDefaults) (bindings : Bindings)
    (hb : ∀ x ∈ bindings, isPlainName x.1 = true) : (es : List Expr) →
    (∀ t ∈ Expr.writtenTypesAll es, HasPlainFields t) →
    Gives (lowerAll d bindings es) fun ss => ∀ s ∈ ss, Complete s
  | [], _ => by
    unfold lowerAll
    exact .pure nofun
  | e :: es, h => by
    unfold Expr.writtenTypesAll at h
    have he := e.gives_lower d bindings hb fun t ht => h t (List.mem_append_left _ ht)
    have hes := gives_lowerAll d bindings hb es fun t ht => h t (List.mem_append_right _ ht)
    unfold lowerAll
    exact he.bind fun _ hs => hes.result fun _ hss => List.forall_mem_cons.mpr ⟨hs, hss⟩

theorem gives_lowerArguments (d : TypeDefaults) (bindings : Bindings)
    (hb : ∀ x ∈ bindings, isPlainName x.1 = true) (call : Expr) (element : Option ValueType)
    (slots : List Slot) : (es : List Expr) →
    (∀ t ∈ Expr.writtenTypesAll es, HasPlainFields t) →
    Gives (lowerArguments d bindings call element slots es) fun ss => ∀ s ∈ ss, Complete s
  | [], _ => by
    unfold lowerArguments
    exact .pure nofun
  | e :: es, h => by
    unfold Expr.writtenTypesAll at h
    have hrest := gives_lowerArguments d bindings hb call element slots.tail es
      fun t ht => h t (List.mem_append_right _ ht)
    have he := e.gives_lower d bindings hb fun t ht => h t (List.mem_append_left _ ht)
    have hbody : ∀ ps body, e = .lambda ps body → ∀ inner : Bindings,
        (∀ x ∈ inner, isPlainName x.1 = true) → Gives (body.lower d inner) Complete := by
      rintro ps body rfl inner hinner
      exact body.gives_lower d inner hinner fun t ht => h t (List.mem_append_left _ (by
        rwa [Expr.writtenTypes]))
    have hcons : ∀ {s : Sql}, Complete s → Gives
        (lowerArguments d bindings call element slots.tail es >>= fun rest => pure (s :: rest))
        fun ss => ∀ s ∈ ss, Complete s :=
      fun hs => hrest.result fun _ hss => List.forall_mem_cons.mpr ⟨hs, hss⟩
    unfold lowerArguments
    dsimp only
    split
    · split
      · rename_i p body _ hp
        have hscope : ∀ x ∈ (p, element) :: bindings, isPlainName x.1 = true :=
          List.forall_mem_cons.mpr ⟨hp, hb⟩
        exact ((hbody [p] body rfl _ hscope).map fun _ hs => Complete.lambda hp hs).bind
          fun _ => hcons
      · exact (Gives.refuse _ _).bind fun _ => hcons
    · exact (Gives.refuse _ _).bind fun _ => hcons
    · exact (Gives.refuse _ _).bind fun _ => hcons
    · exact (gives_shifted he).bind fun _ => hcons
    · exact he.bind fun _ => hcons

end

/-! ## The law -/

/-- What is taken from a negation is written as the negation of what is taken. -/
theorem Sql.render_subcolumn_negate (base : Sql) (key : String) :
    (subcolumn (negate base) key).render = (negate (subcolumn base key)).render := by
  simp [render, needsParens, parenthesised, String.append_assoc]

theorem Sql.render_subscript_negate (target index : Sql) :
    (subscript (negate target) index).render = (negate (subscript target index)).render := by
  simp [render, needsParens, parenthesised, String.append_assoc]

/-- The text of an accepted expression holds a comment exactly where the minus sign of a negation
stands right before another one; and what is taken from a negation is never told from the negation
of what is taken. -/
theorem Expr.comment_iff_minus_signs_stack {d : TypeDefaults} {e : Expr} {prepared : PreparedQuery}
    (hfields : ∀ t ∈ e.writtenTypes, ∀ n ∈ t.fieldNames, isPlainName n = true)
    (h : e.prepare d = .ok prepared) :
    (∃ s, (e.lower d []).run [] = .ok (s, prepared.parameters) ∧ prepared.sql = s.render ∧
      (hasComment prepared.sql = true ↔ s.stacksMinus = true)) ∧
    (∀ base key, (Sql.subcolumn (.negate base) key).render =
      (Sql.negate (.subcolumn base key)).render) ∧
    ∀ target index, (Sql.subscript (.negate target) index).render =
      (Sql.negate (.subscript target index)).render := by
  obtain ⟨⟨s, ps⟩, hrun, hprepared⟩ := Outcome.bind_eq_ok.mp h
  cases hprepared
  have hcomplete : s.Complete := e.gives_lower d [] nofun hfields [] s ps hrun
  have hcomment : hasComment s.render = s.stacksMinus := (Sql.reads_render hcomplete).comment_eq
  exact ⟨⟨s, hrun, rfl, by rw [hcomment]⟩, Sql.render_subcolumn_negate,
    Sql.render_subscript_negate⟩

/-- A minus sign between operands stands between blanks, and parentheses keep others apart. -/
theorem Expr.difference_of_negatives_holds_no_comment :
    let e := Expr.binary .sub (.constant (.int (-1)))
      (.negate (.binary .sub (.column none "A" .int32) (.constant (.int (-2)))))
    let sql := "-1 - -(\"A\" - -2)"
    Expr.prepare {} e = .ok ⟨sql, []⟩ ∧ hasComment sql = false ∧
      ∃ s, (e.lower {} []).run [] = .ok (s, []) ∧ sql = s.render ∧
        (hasComment sql = true ↔ s.stacksMinus = true) := by
  intro e sql
  let s := Sql.binary (.raw (toString (-1))) "-"
    (.negate (.binary (.identifier (quoteName "A")) "-" (.raw (toString (-2)))))
  have hsql : s.render = sql := by decide +kernel
  have hprepare : Expr.prepare {} e = .ok ⟨sql, []⟩ := by
    rw [← hsql]
    rfl
  obtain ⟨htree, _⟩ := comment_iff_minus_signs_stack (by simp [e, writtenTypes]) hprepare
  exact ⟨hprepare, by decide +kernel, htree⟩

/-- Two negations are two minus signs, and the rest of the text is a comment. -/
theorem Expr.negation_of_negation_opens_comment :
    let column := Expr.column none "A" .int32
    let document := Expr.column none "J" .json
    Expr.prepare {} (.negate (.negate column)) = .ok ⟨"--\"A\"", []⟩ ∧
      hasComment "--\"A\"" = true ∧
      Expr.prepare {} (.jsonPath (.negate document) [.key "k"]) =
        Expr.prepare {} (.negate (.jsonPath document [.key "k"])) := by
  intro column document
  have hsql : Sql.render (.negate (.negate (.identifier (quoteName "A")))) = "--\"A\"" := by
    decide +kernel
  refine ⟨?_, by decide +kernel, ?_⟩
  · rw [← hsql]
    rfl
  · have hbase := Sql.render_subcolumn_negate (.identifier (quoteName "J")) (quoteName "k")
    exact congrArg (fun sql => Except.ok (PreparedQuery.mk sql [])) hbase

end ColumnStore
