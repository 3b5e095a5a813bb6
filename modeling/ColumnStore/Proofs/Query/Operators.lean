-- Which operator an arithmetic expression is written with. Text is joined and
-- whole numbers are divided as such, but the lowering judges an operand by its
-- leftmost leaf alone, so the operator fits the operands exactly where that leaf
-- tells what the whole operand is.
import ColumnStore.Proofs.Query.Success

namespace ColumnStore

/-! ## Kinds -/

/-- What a value that arithmetic is done with is. -/
inductive Kind where
  | text
  | fraction
  | whole
  deriving DecidableEq, Repr

def ValueType.kind? (t : ValueType) : Option Kind :=
  if t.isString then some .text
  else if t.isFractional then some .fraction
  else if t.isInteger then some .whole
  else none

namespace Kind

/-- What an operation gives: text if text is added, else a fraction if an operand is one. -/
def ofOperation (op : Operator) (l r : Kind) : Kind :=
  if op = .add ∧ (l = .text ∨ r = .text) then .text
  else if l = .fraction ∨ r = .fraction then .fraction
  else .whole

def ofNegation (k : Kind) : Kind := if k = .fraction then .fraction else .whole

end Kind

def Operator.isArithmetic (op : Operator) : Bool := !op.isComparison && !op.isLogical

/-- Some operand is text. -/
def Joins (l r : Option Kind) : Prop := l = some .text ∨ r = some .text

/-- Both operands are whole numbers. -/
def Divides (l r : Option Kind) : Prop := l = some .whole ∧ r = some .whole

instance (l r : Option Kind) : Decidable (Joins l r) := inferInstanceAs (Decidable (_ ∨ _))

instance (l r : Option Kind) : Decidable (Divides l r) := inferInstanceAs (Decidable (_ ∧ _))

/-- An operation on operands of the kinds: text is joined, whole numbers are divided as such. -/
def Kind.operation (op : Operator) (l r : Option Kind) (x y : Sql) : Sql :=
  if op = .add ∧ Joins l r then .function "concat" [x, y]
  else if op = .div ∧ Divides l r then .function "intDiv" [x, y]
  else .binary x op.symbol y

namespace Expr

/-- The type of a leaf. -/
def leafType? (bindings : Bindings) : Expr → Option ValueType
  | column _ _ type => some type
  | parameter _ type => some type
  | constant value => value.type?
  | var name => (bindings.lookup name).join
  | _ => none

/-- The elements of a leaf that is an array. -/
def leafElement? (bindings : Bindings) (e : Expr) : Option ValueType :=
  (e.leafType? bindings).bind ValueType.element?

/-- Methods that pick or add up what a selector makes of an array's elements. -/
def isSelection (method : String) : Bool := method = "Sum" || method = "Min" || method = "Max"

/-- The kind of an expression that is built from leaves by arithmetic and by selections; nothing
for any other expression. -/
def kind? (bindings : Bindings) : Expr → Option Kind
  | binary op left right => do
    let l ← left.kind? bindings
    let r ← right.kind? bindings
    if op.isArithmetic then some (.ofOperation op l r) else none
  | negate operand => (operand.kind? bindings).map Kind.ofNegation
  | call target method [lambda [p] body] => do
    let element ← target.leafElement? bindings
    if isSelection method then body.kind? ((p, some element) :: bindings) else none
  | e => (e.leafType? bindings).bind ValueType.kind?

/-- The kind of the leftmost leaf. A selection counts as a leaf of its array's elements. -/
def leadingKind? (bindings : Bindings) : Expr → Option Kind
  | binary _ left _ => left.leadingKind? bindings
  | negate operand => operand.leadingKind? bindings
  | call target _ _ => (target.leafElement? bindings).bind ValueType.kind?
  | e => (e.leafType? bindings).bind ValueType.kind?

/-- Every operation of the expression is written in the SQL with the operator that the kinds of
its operands ask for. -/
def FollowsKinds (bindings : Bindings) : Expr → Sql → Prop
  | binary op left right, s => ∃ x y, left.FollowsKinds bindings x ∧
      right.FollowsKinds bindings y ∧
      s = Kind.operation op (left.kind? bindings) (right.kind? bindings) x y
  | negate operand, s => ∃ x, operand.FollowsKinds bindings x ∧ s = .negate x
  | call target _ [lambda [p] body], s =>
    ∃ f x t, body.FollowsKinds ((p, target.leafElement? bindings) :: bindings) x ∧
      s = .function f [.lambda [p] x, t]
  | _, _ => True

/-- At every operation of the expression, the leftmost leaves of the operands tell whether text is
added and whether whole numbers are divided. -/
def LeadsDecide (bindings : Bindings) : Expr → Prop
  | binary op left right => left.LeadsDecide bindings ∧ right.LeadsDecide bindings ∧
      (op = .add → (Joins (left.leadingKind? bindings) (right.leadingKind? bindings) ↔
        Joins (left.kind? bindings) (right.kind? bindings))) ∧
      (op = .div → (Divides (left.leadingKind? bindings) (right.leadingKind? bindings) ↔
        Divides (left.kind? bindings) (right.kind? bindings)))
  | negate operand => operand.LeadsDecide bindings
  | call target _ [lambda [p] body] =>
    body.LeadsDecide ((p, target.leafElement? bindings) :: bindings)
  | _ => True

end Expr

/-! ## The kinds that the lowering sees -/

theorem ValueType.kind?_eq_text {t : ValueType} : t.kind? = some .text ↔ t.isString = true := by
  unfold kind?
  by_cases hs : t.isString = true
  · simp [hs]
  · by_cases hf : t.isFractional = true <;> by_cases hi : t.isInteger = true <;> simp [hs, hf, hi]

theorem ValueType.kind?_eq_whole {t : ValueType} : t.kind? = some .whole ↔ t.isInteger = true := by
  unfold kind? isString isFractional isInteger
  cases t.underlying <;> simp

theorem kindOperation_eq_iff {op : Operator} {l r l' r' : Option Kind} {x y x' y' : Sql} :
    Kind.operation op l r x y = Kind.operation op l' r' x' y' ↔
      x = x' ∧ y = y' ∧ (op = .add → (Joins l r ↔ Joins l' r')) ∧
        (op = .div → (Divides l r ↔ Divides l' r')) := by
  cases op
  case add =>
    by_cases h : Joins l r <;> by_cases h' : Joins l' r' <;> simp [Kind.operation, h, h']
  case div =>
    by_cases h : Divides l r <;> by_cases h' : Divides l' r' <;> simp [Kind.operation, h, h']
  all_goals simp [Kind.operation]

/-- The lowering chooses an operation by the types that it tells for the operands. -/
theorem combine_eq_kindOperation (op : Operator) (lt rt : Option ValueType) (x y : Sql) :
    Lowering.combine op lt rt x y =
      Kind.operation op (lt.bind ValueType.kind?) (rt.bind ValueType.kind?) x y := by
  have htext : ∀ t : Option ValueType,
      t.any ValueType.isString = true ↔ t.bind ValueType.kind? = some .text := by
    intro t
    cases t <;> simp [ValueType.kind?_eq_text]
  have hwhole : ∀ t : Option ValueType,
      t.any ValueType.isInteger = true ↔ t.bind ValueType.kind? = some .whole := by
    intro t
    cases t <;> simp [ValueType.kind?_eq_whole]
  unfold Lowering.combine Kind.operation
  simp only [Bool.and_eq_true, Bool.or_eq_true, decide_eq_true_eq, htext, hwhole, Joins, Divides]
  congr

namespace Expr

variable {d : TypeDefaults} {bindings : Bindings} {ps qs : List BoundParameter} {s : Sql}

theorem type?_of_leafType? {e : Expr} {t : ValueType} (h : e.leafType? bindings = some t) :
    e.type? bindings = some t := by
  cases e <;> first | exact h | cases h

/-- The elements of a leaf are those of an array. -/
theorem receiver_of_leafElement? {e : Expr} {element : ValueType}
    (h : e.leafElement? bindings = some element) :
    ∃ t, e.type? bindings = some t ∧ t.element? = some element ∧
      Receiver.ofType? t = some .array := by
  obtain ⟨t, ht, helement⟩ := Option.bind_eq_some_iff.mp h
  refine ⟨t, type?_of_leafType? ht, helement, ?_⟩
  unfold ValueType.element? at helement
  unfold Receiver.ofType?
  split at helement
  · rename_i heq
    rw [heq]
  · cases helement

theorem isSelection_iff {method : String} :
    isSelection method = true ↔ method = "Sum" ∨ method = "Min" ∨ method = "Max" := by
  simp [isSelection, or_assoc]

theorem leadingKind?_of_leafType? {e : Expr} {t : ValueType} (h : e.leafType? bindings = some t) :
    e.leadingKind? bindings = t.kind? := by
  cases e
  case column | parameter | constant | var => simp [leadingKind?, h]
  all_goals cases h

/-- The lowering tells a type for what has a kind: that of the leftmost leaf. -/
theorem type?_of_kind? {e : Expr} {k : Kind} (h : e.kind? bindings = some k) :
    ∃ t, e.type? bindings = some t ∧ t.kind? = e.leadingKind? bindings := by
  fun_induction kind? bindings e generalizing k with
  | case1 bindings op left right ihl _ =>
    obtain ⟨l, hl, h⟩ := Option.bind_eq_some_iff.mp h
    obtain ⟨r, _, h⟩ := Option.bind_eq_some_iff.mp h
    obtain ⟨t, ht, hlead⟩ := ihl hl
    refine ⟨t, ?_, hlead⟩
    split at h
    · rename_i hop
      have hop : (op.isComparison || op.isLogical) = false := by
        cases op <;> first | rfl | cases hop
      simp [type?, hop, ht]
    · cases h
  | case2 bindings operand ih =>
    obtain ⟨k', hk, _⟩ := Option.map_eq_some_iff.mp h
    exact ih hk
  | case3 bindings target method p body _ =>
    obtain ⟨element, helement, h⟩ := Option.bind_eq_some_iff.mp h
    obtain ⟨t, ht, helem, hreceiver⟩ := receiver_of_leafElement? helement
    split at h
    · rename_i hmethod
      refine ⟨element, ?_, by rw [leadingKind?, helement]; rfl⟩
      simp only [type?, ht, hreceiver, Option.bind_eq_bind, Option.bind_some]
      rcases isSelection_iff.mp hmethod with rfl | rfl | rfl <;> exact helem
    · cases h
  | case4 bindings e _ _ _ =>
    obtain ⟨t, ht, hkind⟩ := Option.bind_eq_some_iff.mp h
    exact ⟨t, type?_of_leafType? ht, (leadingKind?_of_leafType? ht).symm⟩

/-! ## The SQL of an operation -/

/-- An operand is lowered as it is, or is a constant. -/
theorem run_against_eq_ok {peer : Option ValueType} {operand : Expr} {lowered : Lowering Sql}
    (h : (Lowering.against peer operand lowered).run ps = .ok (s, qs)) :
    (∃ v, operand = .constant v) ∨ lowered.run ps = .ok (s, qs) := by
  unfold Lowering.against at h
  split at h
  · split at h
    · exact Or.inl ⟨_, rfl⟩
    · exact Or.inl ⟨_, rfl⟩
    · exact Or.inl ⟨_, rfl⟩
    · exact Or.inr h
  · exact Or.inr h

/-- An operation is lowered operand by operand, unless it compares with a null. -/
theorem run_lower_binary {op : Operator} {left right : Expr}
    (hplain : (op = .eq || op = .ne) = false ∨
      left.isNullConstant = false ∧ right.isNullConstant = false)
    (h : ((binary op left right).lower d bindings).run ps = .ok (s, qs)) :
    ∃ x y rs,
      (Lowering.against (right.type? bindings) left (left.lower d bindings)).run ps = .ok (x, rs) ∧
      (Lowering.against (left.type? bindings) right (right.lower d bindings)).run rs = .ok (y, qs) ∧
      s = Lowering.combine op (left.type? bindings) (right.type? bindings) x y := by
  have hleft : ((op = .eq || op = .ne) && left.isNullConstant) = false := by
    rcases hplain with hop | ⟨hl, _⟩ <;> simp [*]
  have hright : ((op = .eq || op = .ne) && right.isNullConstant) = false := by
    rcases hplain with hop | ⟨_, hr⟩ <;> simp [*]
  unfold lower at h
  simp only [hleft, hright, Bool.false_eq_true, if_false] at h
  obtain ⟨x, rs, hx, h⟩ := Lowering.run_bind_eq_ok.mp h
  obtain ⟨y, ts, hy, h⟩ := Lowering.run_bind_eq_ok.mp h
  cases Lowering.run_pure_eq_ok.mp h
  exact ⟨x, y, rs, hx, hy, rfl⟩

theorem run_lower_negate {operand : Expr}
    (h : ((negate operand).lower d bindings).run ps = .ok (s, qs)) :
    ∃ x, (operand.lower d bindings).run ps = .ok (x, qs) ∧ s = .negate x := by
  unfold lower at h
  obtain ⟨x, rs, hx, h⟩ := Lowering.run_bind_eq_ok.mp h
  cases Lowering.run_pure_eq_ok.mp h
  exact ⟨x, hx, rfl⟩

theorem run_lowerArguments_selector {call body : Expr} {element : Option ValueType} {p : String}
    {as : List Sql}
    (h : (lowerArguments d bindings call element [.selector] [.lambda [p] body]).run ps =
      .ok (as, qs)) :
    ∃ x, (body.lower d ((p, element) :: bindings)).run ps = .ok (x, qs) ∧
      as = [.lambda [p] x] := by
  simp only [lowerArguments, List.head?_cons] at h
  split at h
  · obtain ⟨first, rs, hfirst, h⟩ := Lowering.run_bind_eq_ok.mp h
    obtain ⟨x, ts, hx, hr⟩ := Lowering.run_map_eq_ok.mp hfirst
    cases hr
    simp only [pure_bind] at h
    cases Lowering.run_pure_eq_ok.mp h
    exact ⟨x, hx, rfl⟩
  · obtain ⟨_, _, hrefused, _⟩ := Lowering.run_bind_eq_ok.mp h
    exact absurd hrefused Lowering.run_refuse_ne_ok

/-- A selection is lowered to a function of the lowered selector. -/
theorem run_lower_selection {target body : Expr} {method p : String} {element : ValueType}
    (hmethod : isSelection method = true) (helement : target.leafElement? bindings = some element)
    (h : ((call target method [.lambda [p] body]).lower d bindings).run ps = .ok (s, qs)) :
    ∃ f x t rs, (body.lower d ((p, some element) :: bindings)).run rs = .ok (x, qs) ∧
      s = .function f [.lambda [p] x, t] := by
  obtain ⟨type, htype, helem, hreceiver⟩ := receiver_of_leafElement? helement
  obtain ⟨m, f, hm, hsignature⟩ : ∃ m f, Method.ofName? .array method = some m ∧
      Lowering.signature? m =
        some (.selecting 0 f fun t => .function f [t]) := by
    rcases isSelection_iff.mp hmethod with rfl | rfl | rfl
    · exact ⟨.arraySum, "arraySum", rfl, rfl⟩
    · exact ⟨.arrayMin, "arrayMin", rfl, rfl⟩
    · exact ⟨.arrayMax, "arrayMax", rfl, rfl⟩
  unfold lower at h
  simp only [Lowering.receiver, htype, hreceiver, pure_bind, hm, hsignature, helem,
    Lowering.Signature.selecting] at h
  obtain ⟨t, rs, _, h⟩ := Lowering.run_bind_eq_ok.mp h
  simp only [List.length_singleton, Nat.not_lt_zero, Nat.lt_irrefl, decide_false, Bool.or_self,
    Bool.false_eq_true, if_false] at h
  obtain ⟨as, ts, has, h⟩ := Lowering.run_bind_eq_ok.mp h
  cases Lowering.run_pure_eq_ok.mp h
  obtain ⟨x, hx, rfl⟩ := run_lowerArguments_selector has
  exact ⟨f, x, t, rs, hx, rfl⟩

/-! ## Where the operators fit -/

/-- However the expression is lowered, its operators fit its operands exactly where the leftmost
leaves decide. -/
def FitsAsLed (d : TypeDefaults) (bindings : Bindings) (e : Expr) : Prop :=
  ∀ ps qs s, (e.lower d bindings).run ps = .ok (s, qs) →
    (e.FollowsKinds bindings s ↔ e.LeadsDecide bindings)

theorem fitsAsLed_leaf {e : Expr} {t : ValueType} (ht : e.leafType? bindings = some t) :
    FitsAsLed d bindings e := by
  intro ps qs s _
  cases e
  case column | parameter | constant | var => simp [FollowsKinds, LeadsDecide]
  all_goals cases ht

/-- Beside another operand, a constant may be lowered in another way, but it has no operators. -/
theorem FitsAsLed.against {peer : Option ValueType} {e : Expr} (he : FitsAsLed d bindings e)
    (h : (Lowering.against peer e (e.lower d bindings)).run ps = .ok (s, qs)) :
    e.FollowsKinds bindings s ↔ e.LeadsDecide bindings := by
  rcases run_against_eq_ok h with ⟨v, rfl⟩ | h
  · simp [FollowsKinds, LeadsDecide]
  · exact he _ _ _ h

theorem fitsAsLed_arithmetic {op : Operator} {left right : Expr} {l r : Kind}
    (hop : op.isArithmetic = true) (hl : left.kind? bindings = some l)
    (hr : right.kind? bindings = some r) (hleft : FitsAsLed d bindings left)
    (hright : FitsAsLed d bindings right) : FitsAsLed d bindings (binary op left right) := by
  intro ps qs s h
  have hplain : (op = .eq || op = .ne) = false := by
    cases op <;> first | rfl | cases hop
  obtain ⟨x, y, rs, hx, hy, rfl⟩ := run_lower_binary (.inl hplain) h
  obtain ⟨lt, hlt, hleads⟩ := type?_of_kind? hl
  obtain ⟨rt, hrt, htrails⟩ := type?_of_kind? hr
  rw [hlt, hrt, combine_eq_kindOperation]
  simp only [FollowsKinds, LeadsDecide, Option.bind_some, hleads, htrails]
  rw [← hleft.against hx, ← hright.against hy]
  constructor
  · rintro ⟨x', y', hx', hy', heq⟩
    obtain ⟨rfl, rfl, hadd, hdiv⟩ := kindOperation_eq_iff.mp heq
    exact ⟨hx', hy', hadd, hdiv⟩
  · rintro ⟨hx', hy', hadd, hdiv⟩
    exact ⟨x, y, hx', hy', kindOperation_eq_iff.mpr ⟨rfl, rfl, hadd, hdiv⟩⟩

theorem fitsAsLed_negate {operand : Expr} (hoperand : FitsAsLed d bindings operand) :
    FitsAsLed d bindings (negate operand) := by
  intro ps qs s h
  obtain ⟨x, hx, rfl⟩ := run_lower_negate h
  simp only [FollowsKinds, LeadsDecide]
  rw [← hoperand _ _ _ hx]
  constructor
  · rintro ⟨y, hy, heq⟩
    cases heq
    exact hy
  · intro hx
    exact ⟨x, hx, rfl⟩

theorem fitsAsLed_selection {target body : Expr} {method p : String} {element : ValueType}
    (hmethod : isSelection method = true) (helement : target.leafElement? bindings = some element)
    (hbody : FitsAsLed d ((p, some element) :: bindings) body) :
    FitsAsLed d bindings (call target method [.lambda [p] body]) := by
  intro ps qs s h
  obtain ⟨f, x, t, rs, hx, rfl⟩ := run_lower_selection hmethod helement h
  simp only [FollowsKinds, LeadsDecide, helement]
  rw [← hbody _ _ _ hx]
  constructor
  · rintro ⟨f', y, t', hy, heq⟩
    cases heq
    exact hy
  · intro hx
    exact ⟨f, x, t, hx, rfl⟩

/-! ## Laws -/

/-- The lowered expression has the operators that its operands ask for exactly where their
leftmost leaves tell what they are. -/
theorem follows_kinds_iff_leads_decide {e : Expr} {k : Kind} (hk : e.kind? bindings = some k)
    (h : (e.lower d bindings).run ps = .ok (s, qs)) :
    e.FollowsKinds bindings s ↔ e.LeadsDecide bindings := by
  suffices hfits : FitsAsLed d bindings e from hfits ps qs s h
  clear h
  fun_induction kind? bindings e generalizing k with
  | case1 bindings op left right ihl ihr =>
    obtain ⟨l, hl, hk⟩ := Option.bind_eq_some_iff.mp hk
    obtain ⟨r, hr, hk⟩ := Option.bind_eq_some_iff.mp hk
    split at hk
    · rename_i hop
      exact fitsAsLed_arithmetic hop hl hr (ihl hl) (ihr hr)
    · cases hk
  | case2 bindings operand ih =>
    obtain ⟨k', hk, _⟩ := Option.map_eq_some_iff.mp hk
    exact fitsAsLed_negate (ih hk)
  | case3 bindings target method p body ih =>
    obtain ⟨element, helement, hk⟩ := Option.bind_eq_some_iff.mp hk
    split at hk
    · rename_i hmethod
      exact fitsAsLed_selection hmethod helement (ih element hk)
    · cases hk
  | case4 bindings e _ _ _ =>
    obtain ⟨t, ht, _⟩ := Option.bind_eq_some_iff.mp hk
    exact fitsAsLed_leaf ht

/-- A whole sum over a whole number is divided as such, also within a selection. -/
theorem whole_sum_follows_kinds :
    let e := Expr.binary .div
      (.call (.column none "A" (.array .int32)) "Sum"
        [.lambda ["x"] (.binary .add (.var "x") (.constant (.int 1)))])
      (.column none "C" .int32)
    let s := Sql.function "intDiv"
      [.function "arraySum"
        [.lambda ["x"] (.binary (.var "x") "+" (.raw "1")), .identifier "\"A\""],
        .identifier "\"C\""]
    e.kind? [] = some .whole ∧ (e.lower {} []).run [] = .ok (s, []) ∧ e.FollowsKinds [] s := by
  intro e s
  have hkind : e.kind? [] = some .whole := by decide
  have hrun : (e.lower {} []).run [] = .ok (s, []) := by rfl
  have hlead : e.LeadsDecide [] :=
    ⟨⟨trivial, trivial, by decide, by decide⟩, trivial, by decide, by decide⟩
  exact ⟨hkind, hrun, (follows_kinds_iff_leads_decide hkind hrun).mpr hlead⟩

/-- A whole number plus a fraction is a fraction, and yet divided as a whole number. -/
theorem fraction_divided_as_whole :
    let sum := Expr.binary .add (.column none "A" .int32) (.column none "B" .float64)
    let e := Expr.binary .div sum (.column none "C" .int32)
    let s := Sql.function "intDiv"
      [.binary (.identifier "\"A\"") "+" (.identifier "\"B\""), .identifier "\"C\""]
    sum.kind? [] = some .fraction ∧ (e.lower {} []).run [] = .ok (s, []) ∧
      ¬e.FollowsKinds [] s := by
  intro sum e s
  refine ⟨by decide, by rfl, ?_⟩
  rintro ⟨x, y, _, _, hs⟩
  have hkinds : ¬Divides (sum.kind? []) (Expr.kind? [] (.column none "C" .int32)) := by decide
  simp [s, Kind.operation, hkinds] at hs

end Expr

end ColumnStore
