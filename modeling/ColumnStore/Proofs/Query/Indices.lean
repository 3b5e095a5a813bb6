-- Indices that count from zero in the application count from one in the store.
-- What an index comes to is told of the application's expression and of the SQL
-- alike, without bounds, and however the index is lowered the second number is
-- the first one shifted once.
import ColumnStore.Proofs.Query.Folding
import ColumnStore.Proofs.Query.Operators
import ColumnStore.Proofs.Query.Untranslatable
import ColumnStore.Proofs.Text.Integer
import Mathlib

namespace ColumnStore

/-! ## Whole numbers in the store -/

namespace Sql

/-- The store's operators on whole numbers. A comparison gives one or zero, a remainder has the
sign of the dividend, and a quotient would be a fraction. -/
def operation? (op : String) (a b : Int) : Option Int :=
  match op with
  | "+" => some (a + b)
  | "-" => some (a - b)
  | "*" => some (a * b)
  | "%" => if b = 0 then none else some (a.tmod b)
  | "=" => some (decide (a = b)).toInt
  | "!=" => some (decide (a ≠ b)).toInt
  | "<" => some (decide (a < b)).toInt
  | "<=" => some (decide (a ≤ b)).toInt
  | ">" => some (decide (b < a)).toInt
  | ">=" => some (decide (b ≤ a)).toInt
  | _ => none

/-- The number that a literal is, or that a placeholder stands for. -/
def rawWhole? (ρ : Assignment) (text : String) : Option Int :=
  match text.toList with
  | '\x7b' :: cs => some (ρ.parameter (.ofList (cs.takeWhile (· ≠ ':'))))
  | _ => text.toInt?

/-- The whole number that the SQL comes to. A choice calculates the one side that is chosen. -/
def whole? (ρ : Assignment) : Sql → Option Int
  | identifier text =>
    match ObjectName.read? text.toList with
    | some (column, []) => some (ρ.column column)
    | _ => none
  | raw text => rawWhole? ρ text
  | negate operand => (operand.whole? ρ).map (-·)
  | binary left op right => do operation? op (← left.whole? ρ) (← right.whole? ρ)
  | function "intDiv" [left, right] => do
    let a ← left.whole? ρ
    let b ← right.whole? ρ
    if b = 0 then none else some (a.tdiv b)
  | function "if" [test, whenTrue, whenFalse] => do
    if (← test.whole? ρ) = 0 then whenFalse.whole? ρ else whenTrue.whole? ρ
  | _ => none

/-- Where an access to an element or to a part of a text says which one. -/
def place? : Sql → Option Sql
  | function "arrayElement" (_ :: place :: _) => some place
  | function "substringUTF8" (_ :: place :: _) => some place
  | subscript _ place => some place
  | _ => none

end Sql

/-- The index from one on. Negative indices count from the end on both sides. -/
def oneBased (v : Int) : Int := if 0 ≤ v then v + 1 else v

theorem oneBased_ne_zero (v : Int) : oneBased v ≠ 0 := by
  unfold oneBased
  split <;> omega

/-! ## Leaves -/

section

variable {ρ : Assignment}

namespace Sql

theorem whole?_column (table : Option String) (name : String) :
    (identifier (Text.qualifiedName table name)).whole? ρ =
      some (ρ.column (ObjectName.mk table name).written) := by
  rw [whole?, ObjectName.read?_qualifiedName]

theorem rawWhole?_number (v : Int) : rawWhole? ρ (toString v) = some v := by
  rw [rawWhole?]
  split
  · rename_i cs hbrace
    have hmem : '\x7b' ∈ (toString v).toList := hbrace ▸ List.mem_cons_self
    rcases Text.mem_toString_int hmem with hc | hc <;> exact absurd hc (by decide)
  · rw [Int.toString_eq_repr, Int.toInt?_repr]

theorem whole?_placeholder {name : String} (h : Text.isPlainName name = true)
    (storeType : String) :
    (raw (Text.placeholder name storeType)).whole? ρ = some (ρ.parameter name) := by
  obtain ⟨cs, htext, hname⟩ := Text.exists_toList_placeholder h storeType
  simp only [whole?, rawWhole?, htext, hname]

end Sql

theorem Value.whole?_literal {value : Value} {v : Int} (h : value.whole? = some v) :
    (Sql.raw value.literal).whole? ρ = some v := by
  rw [literal_of_whole? h]
  exact Sql.rawWhole?_number v

/-! ## Operations -/

theorem Sql.operation?_arithmetic {op : Operator} (hop : op.isArithmetic = true) (hdiv : op ≠ .div)
    (a b : Int) : operation? op.symbol a b = op.onWhole? a b := by
  cases op <;> first | rfl | exact absurd rfl hdiv | cases hop

theorem Sql.operation?_comparison {op : Operator} (hop : op.isComparison = true) (a b : Int) :
    operation? op.symbol a b = (op.compares? a b).map Bool.toInt := by
  cases op <;> first | rfl | cases hop

namespace Lowering

/-- Nothing is a name of an enumeration beside a whole number. -/
theorem against_whole {t : ValueType} (ht : t.isInteger = true) (operand : Expr)
    (lowered : Lowering Sql) : against (some t) operand lowered = lowered := by
  unfold against
  split
  · rename_i heq
    rw [ValueType.isInteger, Option.some.inj heq] at ht
    cases ht
  · rfl

theorem combine_whole {op : Operator} {lt rt : ValueType} (hl : lt.isInteger = true)
    (hr : rt.isInteger = true) (x y : Sql) : combine op (some lt) (some rt) x y =
      if op = .div then .function "intDiv" [x, y] else .binary x op.symbol y := by
  rw [combine_eq_kindOperation, Option.bind_some, Option.bind_some,
    ValueType.kind?_eq_whole.mpr hl, ValueType.kind?_eq_whole.mpr hr]
  have hjoins : ¬Joins (some .whole) (some .whole) := by decide
  have hdivides : Divides (some .whole) (some .whole) := ⟨rfl, rfl⟩
  simp [Kind.operation, hjoins, hdivides]

end Lowering

/-- Quotients of whole numbers go toward zero, all other operators are the store's own. -/
theorem Sql.whole?_combine {op : Operator} {lt rt : ValueType} (hop : op.isArithmetic = true)
    (hl : lt.isInteger = true) (hr : rt.isInteger = true) (x y : Sql) :
    (Lowering.combine op (some lt) (some rt) x y).whole? ρ =
      (do op.onWhole? (← x.whole? ρ) (← y.whole? ρ)) := by
  rw [Lowering.combine_whole hl hr]
  split
  · rename_i hdiv
    subst hdiv
    rw [whole?]
    rfl
  · rename_i hdiv
    rw [whole?]
    simp only [operation?_arithmetic hop hdiv]

theorem Sql.whole?_compare {op : Operator} {lt rt : ValueType} (hop : op.isComparison = true)
    (hl : lt.isInteger = true) (hr : rt.isInteger = true) (x y : Sql) :
    (Lowering.combine op (some lt) (some rt) x y).whole? ρ =
      (do (op.compares? (← x.whole? ρ) (← y.whole? ρ)).map Bool.toInt) := by
  have hdiv : op ≠ .div := by
    rintro rfl
    cases hop
  rw [Lowering.combine_whole hl hr, if_neg hdiv, whole?]
  simp only [operation?_comparison hop]

namespace Expr

/-! ## Expressions over whole numbers -/

/-- What is built from whole numbers, and from columns and parameters of such types, by arithmetic
and by choices. -/
inductive IsWhole : Expr → Prop
  | word (n : Int64) : IsWhole (constant (.int n))
  | unsigned (n : UInt64) : IsWhole (constant (.uint n))
  | column {table name type} (htype : type.isInteger = true) : IsWhole (column table name type)
  | parameter {name type} (htype : type.isInteger = true) : IsWhole (parameter name type)
  | negate {operand} (h : IsWhole operand) : IsWhole (negate operand)
  | binary {op left right} (hop : op.isArithmetic = true) (hleft : IsWhole left)
      (hright : IsWhole right) : IsWhole (binary op left right)
  | conditional {op left right whenTrue whenFalse} (hop : op.isComparison = true)
      (hleft : IsWhole left) (hright : IsWhole right) (htrue : IsWhole whenTrue)
      (hfalse : IsWhole whenFalse) :
      IsWhole (conditional (.binary op left right) whenTrue whenFalse)

namespace IsWhole

variable {d : TypeDefaults} {bindings : Bindings} {e : Expr}

/-- The lowering tells that it is a whole number. -/
theorem exists_type? (h : e.IsWhole) (bindings : Bindings) :
    ∃ t, e.type? bindings = some t ∧ t.isInteger = true := by
  induction h with
  | word => exact ⟨.int64, rfl, rfl⟩
  | unsigned => exact ⟨.uint64, rfl, rfl⟩
  | column htype | parameter htype => exact ⟨_, rfl, htype⟩
  | negate _ ih => exact ih
  | @binary op _ _ hop _ _ ihl _ =>
    obtain ⟨t, ht, hinteger⟩ := ihl
    have hop : (op.isComparison || op.isLogical) = false := by
      cases op <;> first | rfl | cases hop
    exact ⟨t, by simp [type?, hop, ht], hinteger⟩
  | conditional _ _ _ _ _ _ _ ihtrue _ =>
    obtain ⟨t, ht, hinteger⟩ := ihtrue
    exact ⟨t, by simp [type?, ht], hinteger⟩

theorem isNullConstant_eq_false (h : e.IsWhole) : e.isNullConstant = false := by
  cases h <;> rfl

/-- The lowered operands come to what the operands come to, whatever comparison or arithmetic
stands between them. -/
theorem run_lower_binary {op : Operator} {left right : Expr} {s : Sql}
    {ps qs : List BoundParameter} (hleft : left.IsWhole) (hright : right.IsWhole)
    (h : ((Expr.binary op left right).lower d bindings).run ps = .ok (s, qs)) :
    ∃ lt rt x y rs, lt.isInteger = true ∧ rt.isInteger = true ∧
      (left.lower d bindings).run ps = .ok (x, rs) ∧
      (right.lower d bindings).run rs = .ok (y, qs) ∧
      s = Lowering.combine op (some lt) (some rt) x y := by
  obtain ⟨lt, hlt, hl⟩ := hleft.exists_type? bindings
  obtain ⟨rt, hrt, hr⟩ := hright.exists_type? bindings
  have hplain := And.intro hleft.isNullConstant_eq_false hright.isNullConstant_eq_false
  obtain ⟨x, y, rs, hx, hy, hs⟩ := Expr.run_lower_binary (.inr hplain) h
  rw [hrt, Lowering.against_whole hr] at hx
  rw [hlt, Lowering.against_whole hl] at hy
  rw [hlt, hrt] at hs
  exact ⟨lt, rt, x, y, rs, hl, hr, hx, hy, hs⟩

/-- Whatever the columns and parameters hold, the SQL comes to what the expression comes to. -/
theorem whole?_lower (h : e.IsWhole) {s : Sql} {ps qs : List BoundParameter}
    (hrun : (e.lower d bindings).run ps = .ok (s, qs)) : s.whole? ρ = e.whole? ρ := by
  induction h generalizing s ps qs with
  | word | unsigned =>
    cases Lowering.run_pure_eq_ok.mp hrun
    exact Value.whole?_literal rfl
  | column =>
    cases Lowering.run_pure_eq_ok.mp hrun
    exact Sql.whole?_column _ _
  | @parameter name type _ =>
    have hgives : Lowering.Gives ((Expr.parameter name type).lower d bindings)
        (·.whole? ρ = some (ρ.parameter name)) := by
      rw [lower]
      exact Lowering.Gives.parameter fun hplain storeType _ =>
        Sql.whole?_placeholder hplain storeType
    exact hgives ps s qs hrun
  | negate _ ih =>
    obtain ⟨x, hx, rfl⟩ := run_lower_negate hrun
    rw [Sql.whole?, ih hx, Expr.whole?]
  | binary hop hleft hright ihl ihr =>
    obtain ⟨lt, rt, x, y, rs, hl, hr, hx, hy, rfl⟩ := run_lower_binary hleft hright hrun
    rw [Sql.whole?_combine hop hl hr, ihl hx, ihr hy, Expr.whole?]
  | @conditional op left right _ _ hop hleft hright _ _ ihl ihr ihtrue ihfalse =>
    unfold lower at hrun
    obtain ⟨test, _, htest, hrun⟩ := Lowering.run_bind_eq_ok.mp hrun
    obtain ⟨t, _, ht, hrun⟩ := Lowering.run_bind_eq_ok.mp hrun
    obtain ⟨f, _, hf, hrun⟩ := Lowering.run_bind_eq_ok.mp hrun
    cases Lowering.run_pure_eq_ok.mp hrun
    obtain ⟨lt, rt, x, y, rs, hl, hr, hx, hy, rfl⟩ := run_lower_binary hleft hright htest
    rw [Sql.whole?, Sql.whole?_compare hop hl hr, ihl hx, ihr hy, ihtrue ht, ihfalse hf,
      Expr.whole?]
    cases left.whole? ρ <;> cases right.whole? ρ <;> try rfl
    rename_i a b
    simp only [Option.bind_eq_bind, Option.bind_some]
    cases op.compares? a b with
    | none => rfl
    | some chosen => cases chosen <;> rfl

end IsWhole

end Expr

/-! ## The shift -/

theorem Value.whole?_of_toInt64? {value : Value} {n : Int64} (h : value.toInt64? = some n) :
    value.whole? = some n.toInt := by
  cases value with
  | int =>
    cases h
    rfl
  | uint m =>
    rw [toInt64?] at h
    split at h <;> cases h
    rename_i hm
    rw [whole?, Int64.toInt_ofNat_of_lt hm]
  | _ => cases h

namespace Lowering

theorem shiftIndex?_eq_some_iff {n m : Int64} :
    shiftIndex? n = some m ↔ m.toInt = oneBased n.toInt := by
  have hsign : 0 ≤ n ↔ 0 ≤ n.toInt := Int64.le_iff_toInt_le
  unfold shiftIndex? oneBased
  by_cases hn : 0 ≤ n.toInt
  · rw [if_pos (hsign.mpr hn), if_pos hn, exactInt64?_eq_some_iff]
  · rw [if_neg (hsign.not.mpr hn), if_neg hn, Option.some.injEq, ← Int64.toInt_inj, eq_comm]

/-- The expression of a shifted index that the query calculates. -/
theorem Sql.whole?_shift (x : Sql) :
    (Sql.function "if" [.binary x ">=" (.raw "0"), .binary x "+" (.raw "1"), x]).whole? ρ =
      (x.whole? ρ).map oneBased := by
  have hzero : Sql.rawWhole? ρ "0" = some 0 := Sql.rawWhole?_number 0
  have hone : Sql.rawWhole? ρ "1" = some 1 := Sql.rawWhole?_number 1
  simp only [Sql.whole?, hzero, hone]
  cases x.whole? ρ with
  | none => rfl
  | some v =>
    by_cases hv : 0 ≤ v <;> simp [Sql.operation?, oneBased, hv]

/-- A shifted index comes to the index from one on. -/
theorem whole?_shifted {d : TypeDefaults} {bindings : Bindings} {e index : Expr} {place : Sql}
    {ps qs : List BoundParameter} (hindex : index.IsWhole)
    (hrun : (shifted e index (index.lower d bindings)).run ps = .ok (place, qs)) {v : Int}
    (hv : index.whole? ρ = some v) : place.whole? ρ = some (oneBased v) := by
  unfold shifted at hrun
  split at hrun
  · rename_i value hfold
    split at hrun
    · rename_i n hn
      unfold shiftedConstant at hrun
      split at hrun
      · rename_i m hm
        cases run_pure_eq_ok.mp hrun
        rw [Expr.whole?_of_fold? hfold (Value.whole?_of_toInt64? hn)] at hv
        cases hv
        rw [Sql.whole?, Sql.rawWhole?_number, shiftIndex?_eq_some_iff.mp hm]
      · exact absurd hrun run_refuse_ne_ok
    · exact absurd hrun run_refuse_ne_ok
  · obtain ⟨x, _, hx, hrun⟩ := run_bind_eq_ok.mp hrun
    cases run_pure_eq_ok.mp hrun
    rw [Sql.whole?_shift, hindex.whole?_lower hx, hv]
    rfl

/-- A constant index is refused unless it is a whole number whose shift is a word. -/
theorem fails_shifted_constant {e index : Expr} {value : Value} {lowered : Lowering Sql}
    (hfold : index.fold? = some value)
    (hvalue : ∀ v, value.whole? = some v → ¬FitsWord (oneBased v)) :
    Fails (shifted e index lowered) := by
  unfold shifted
  rw [hfold]
  dsimp only
  split
  · rename_i n hn
    unfold shiftedConstant
    split
    · rename_i m hm
      refine absurd ?_ (hvalue _ (Value.whole?_of_toInt64? hn))
      rw [← shiftIndex?_eq_some_iff.mp hm]
      exact fitsWord_toInt m
    · exact Fails.refuse _ _
  · exact Fails.refuse _ _

end Lowering

/-! ## Where an index is taken -/

namespace Expr

/-- The expression accesses an element, or a part of a text, by the index. -/
inductive TakesIndex (bindings : Bindings) (index : Expr) : Expr → Prop
  | indexer {target receiver} (hmem : receiver ∈ [Receiver.array, .string, .json])
      (htarget : (target.type? bindings).bind Receiver.ofType? = some receiver) :
      TakesIndex bindings index (.index target index)
  | element {target method} (hmethod : method = "ElementAt" ∨ method = "ElementAtOrDefault")
      (htarget : (target.type? bindings).bind Receiver.ofType? = some .array) :
      TakesIndex bindings index (call target method [index])
  | substring {target rest}
      (htarget : (target.type? bindings).bind Receiver.ofType? = some .string) :
      TakesIndex bindings index (call target "Substring" (index :: rest))

variable {d : TypeDefaults} {bindings : Bindings} {ps qs : List BoundParameter} {s : Sql}

theorem run_lowerArguments_index {call index : Expr} {element : Option ValueType}
    {slots : List Lowering.Slot} {rest : List Expr} {as : List Sql}
    (h : (lowerArguments d bindings call element (.index :: slots) (index :: rest)).run ps =
      .ok (as, qs)) :
    ∃ place rs others, (Lowering.shifted call index (index.lower d bindings)).run ps =
      .ok (place, rs) ∧ as = place :: others := by
  unfold lowerArguments at h
  obtain ⟨place, rs, hplace, h⟩ := Lowering.run_bind_eq_ok.mp h
  obtain ⟨others, _, _, h⟩ := Lowering.run_bind_eq_ok.mp h
  cases Lowering.run_pure_eq_ok.mp h
  exact ⟨place, rs, others, hplace, rfl⟩

theorem run_indexed_eq_ok {r : Receiver} {act base : Lowering Sql}
    (h : (do let i ← act; return Lowering.indexed r (← base) i).run ps = .ok (s, qs)) :
    ∃ place rs t, act.run ps = .ok (place, rs) ∧ s = Lowering.indexed r t place := by
  obtain ⟨place, rs, hplace, h⟩ := Lowering.run_bind_eq_ok.mp h
  obtain ⟨t, _, _, h⟩ := Lowering.run_bind_eq_ok.mp h
  cases Lowering.run_pure_eq_ok.mp h
  exact ⟨place, rs, t, hplace, rfl⟩

/-- An access is lowered with its index shifted. -/
theorem TakesIndex.exists_place {e index : Expr} (h : TakesIndex bindings index e)
    (hrun : (e.lower d bindings).run ps = .ok (s, qs)) :
    ∃ place rs ts, (Lowering.shifted e index (index.lower d bindings)).run rs = .ok (place, ts) ∧
      s.place? = some place := by
  cases h with
  | @indexer target receiver hmem htarget =>
    unfold lower at hrun
    obtain ⟨⟨r, type⟩, _, hreceiver, hrun⟩ := Lowering.run_bind_eq_ok.mp hrun
    obtain ⟨htype, hr, rfl⟩ := Lowering.run_receiver_eq_ok hreceiver
    rw [htype, Option.bind_some, hr] at htarget
    cases htarget
    simp only [List.mem_cons, List.not_mem_nil, or_false] at hmem
    rcases hmem with rfl | rfl | rfl <;>
      obtain ⟨place, ts, t, hplace, rfl⟩ := run_indexed_eq_ok hrun <;>
      exact ⟨place, _, ts, hplace, rfl⟩
  | @element target method hmethod htarget =>
    obtain ⟨type, r, m, signature, t, subject, rs, as, htype, hr, hm, hsignature, _, _, has, rfl⟩ :=
      Lowering.run_lower_call hrun
    rw [htype, Option.bind_some, hr] at htarget
    cases htarget
    obtain rfl : m = .arrayElementAt := by
      rcases hmethod with rfl | rfl <;> exact (Option.some.inj hm).symm
    cases hsignature
    obtain ⟨place, ts, others, hplace, rfl⟩ := run_lowerArguments_index has
    exact ⟨place, rs, ts, hplace, rfl⟩
  | @substring target rest htarget =>
    obtain ⟨type, r, m, signature, t, subject, rs, as, htype, hr, hm, hsignature, _, _, has, rfl⟩ :=
      Lowering.run_lower_call hrun
    rw [htype, Option.bind_some, hr] at htarget
    cases htarget
    cases hm
    cases hsignature
    obtain ⟨place, ts, others, hplace, rfl⟩ := run_lowerArguments_index has
    exact ⟨place, rs, ts, hplace, rfl⟩

/-- An index comes to the same number from one on whether it is calculated beforehand or by the
query, and never to zero. One that is calculated beforehand and leaves the words is refused. -/
theorem index_is_shifted_once (d : TypeDefaults) {bindings : Bindings} {e index : Expr}
    (h : TakesIndex bindings index e) :
    (index.IsWhole → ∀ ps s qs, (e.lower d bindings).run ps = .ok (s, qs) →
      ∃ place, s.place? = some place ∧ ∀ ρ v, index.whole? ρ = some v →
        place.whole? ρ = some (oneBased v) ∧ place.whole? ρ ≠ some 0) ∧
    ∀ value, index.fold? = some value →
      (∀ v, value.whole? = some v → ¬FitsWord (oneBased v)) →
        Lowering.Fails (e.lower d bindings) := by
  constructor
  · intro hindex ps s qs hrun
    obtain ⟨place, rs, ts, hshifted, hplace⟩ := h.exists_place hrun
    refine ⟨place, hplace, fun ρ v hv => ?_⟩
    have hvalue := Lowering.whole?_shifted hindex hshifted hv
    refine ⟨hvalue, ?_⟩
    rw [hvalue]
    exact fun hzero => oneBased_ne_zero v (Option.some.inj hzero)
  · intro value hfold hvalue ps r hrun
    obtain ⟨place, rs, ts, hshifted, _⟩ := h.exists_place hrun
    exact Lowering.fails_shifted_constant hfold hvalue rs _ hshifted

/-- A negative index stays as it is, any other has one more; the largest word cannot have one
more. -/
theorem negative_quotient_stays_and_remainder_is_shifted :
    let tags := Expr.column none "Tags" (.array .string)
    let a := Expr.column none "A" .int32
    let b := Expr.parameter "b" .uint64
    let index := Expr.conditional (.binary .lt a b)
      (.binary .div a (.constant (.int (-2)))) (.binary .mod a b)
    let e := Expr.call tags "ElementAt" [index]
    let near : Assignment := ⟨fun _ => 7, fun _ => 9⟩
    let far : Assignment := ⟨fun _ => 10, fun _ => 4⟩
    (∃ s qs place, (e.lower {} []).run [] = .ok (s, qs) ∧ s.place? = some place ∧
      index.whole? near = some (-3) ∧ place.whole? near = some (-3) ∧
      index.whole? far = some 2 ∧ place.whole? far = some 3) ∧
    Lowering.Fails ((Expr.index tags (.constant (.uint 9223372036854775807))).lower {} []) := by
  intro tags a b index e near far
  have hindex : index.IsWhole := .conditional (by decide) (.column (by decide))
    (.parameter (by decide)) (.binary (by decide) (.column (by decide)) (.word _))
    (.binary (by decide) (.column (by decide)) (.parameter (by decide)))
  have htakes : TakesIndex [] index e := .element (Or.inl rfl) (by decide)
  have hplaced := (index_is_shifted_once {} htakes).1 hindex
  constructor
  · have hrun : ∃ s qs, (e.lower {} []).run [] = .ok (s, qs) := ⟨_, _, rfl⟩
    obtain ⟨s, qs, hrun⟩ := hrun
    obtain ⟨place, hplace, hvalue⟩ := hplaced [] s qs hrun
    have hnear : index.whole? near = some (-3) := by decide
    have hfar : index.whole? far = some 2 := by decide
    exact ⟨s, qs, place, hrun, hplace, hnear, (hvalue near _ hnear).1, hfar, (hvalue far _ hfar).1⟩
  · have hlargest : TakesIndex [] (.constant (.uint 9223372036854775807))
        (.index tags (.constant (.uint 9223372036854775807))) :=
      .indexer (List.mem_cons_self : Receiver.array ∈ _) (by decide)
    refine (index_is_shifted_once {} hlargest).2 _ rfl fun v hv => ?_
    cases hv
    decide

end Expr

end

end ColumnStore
