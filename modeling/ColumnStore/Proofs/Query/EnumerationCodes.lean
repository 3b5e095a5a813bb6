-- Codes of an enumeration beside an operand of its type. Compared, a code
-- stands for the member that has it; calculated with, it is a number. The
-- lowering asks for the constant and not for the operator, so it writes names in
-- arithmetic too, and numbers in comparisons where they are kept in no word.
import ColumnStore.Proofs.Query.Indices
import ColumnStore.Proofs.Value.Signs

namespace ColumnStore

/-! ## The rule -/

/-- The whole number that a constant is, whether it is kept in a word or not. -/
def Value.number? : Value → Option Int
  | bigInt n => some n.value
  | v => v.whole?

/-- An operation on a constant and another operand, in this order or in the other. -/
def Expr.beside (constantFirst : Bool) (op : Operator) (value : Value) (other : Expr) : Expr :=
  if constantFirst then .binary op (.constant value) other else .binary op other (.constant value)

def Sql.beside (constantFirst : Bool) (op : Operator) (constant other : Sql) : Sql :=
  if constantFirst then .binary constant op.symbol other else .binary other op.symbol constant

/-- The outcome is an operation with the constant as the rule has it beside an operand of the
enumeration's type. -/
structure WritesCode (op : Operator) (e : Enumeration) (value : Value) (code : Int)
    (operation : Sql → Sql) (parameters : List BoundParameter)
    (outcome : Outcome (Sql × List BoundParameter)) : Prop where
  named : op.isComparison = true → (∃ m ∈ e.members, m.code.toInt = code) →
    ∃ m ∈ e.members, m.code.toInt = code ∧
      outcome = .ok (operation (.raw (Text.literal m.name)), parameters)
  refused : op.isComparison = true → (∀ m ∈ e.members, m.code.toInt ≠ code) →
    ∃ fault, outcome = .error fault
  counted : op.isArithmetic = true → outcome = .ok (operation (.raw value.literal), parameters)

/-! ## What the lowering writes -/

namespace Lowering

variable {value : Value} {code : Int} {e : Enumeration} {t : ValueType} {lowered : Lowering Sql}

/-- A code in a word becomes the name of a member that has it, or is refused where none has it. -/
theorem against_word (henum : t.underlying = .enumeration e) (hword : value.whole? = some code) :
    (∃ m ∈ e.members, m.code.toInt = code ∧
      against (some t) (.constant value) lowered = pure (.raw (Text.literal m.name))) ∨
    (∀ m ∈ e.members, m.code.toInt ≠ code) ∧
      ∃ cause, against (some t) (.constant value) lowered = refuse (.constant value) cause := by
  have hmember : ∀ n : Int64, n.toInt = code →
      (∃ m ∈ e.members, m.code.toInt = code ∧
        against.member (.constant value) e n = pure (.raw (Text.literal m.name))) ∨
      (∀ m ∈ e.members, m.code.toInt ≠ code) ∧
        ∃ cause, against.member (.constant value) e n = refuse (.constant value) cause := by
    rintro n rfl
    unfold against.member
    split
    · rename_i m hm
      have hcode := List.find?_some hm
      rw [decide_eq_true_eq] at hcode
      exact Or.inl ⟨m, List.mem_of_find?_eq_some hm, congrArg _ hcode, rfl⟩
    · rename_i hnone
      refine Or.inr ⟨fun m hm hcode => ?_, _, rfl⟩
      have := List.find?_eq_none.mp hnone m hm
      exact this (decide_eq_true (Int64.toInt_inj.mp hcode))
  unfold against
  rw [Option.map_some, henum]
  cases value with
  | int n =>
    cases hword
    exact hmember n rfl
  | uint n =>
    cases hword
    dsimp only
    split
    · rename_i m hm
      exact hmember m (Option.some.inj (Value.whole?_of_toInt64? hm)).symm
    · rename_i hnone
      refine Or.inr ⟨fun m _ hcode => ?_, _, rfl⟩
      have hlarge : ¬n.toNat < Nat.pow 2 63 := by
        intro hsmall
        rw [Value.toInt64?, if_pos hsmall] at hnone
        cases hnone
      have hpower : Nat.pow 2 63 = 9223372036854775808 := rfl
      have := (fitsWord_toInt m.code).2
      omega
  | _ => cases hword

/-- A code that is kept in no word is lowered as any other operand. -/
theorem against_bigInt (t : ValueType) (n : BigInteger) (lowered : Lowering Sql) :
    against (some t) (.constant (.bigInt n)) lowered = lowered := by
  unfold against
  split <;> rfl

theorem combine_enumeration (op : Operator) {c t : ValueType} (hc : c.isInteger = true)
    (henum : t.underlying = .enumeration e) (x y : Sql) :
    combine op (some c) (some t) x y = .binary x op.symbol y ∧
      combine op (some t) (some c) x y = .binary x op.symbol y := by
  have hkind : t.kind? = none := by
    simp [ValueType.kind?, ValueType.isString, ValueType.isFractional, ValueType.isInteger, henum]
  simp only [combine_eq_kindOperation, Option.bind_some, hkind, ValueType.kind?_eq_whole.mpr hc]
  cases op <;> exact ⟨rfl, rfl⟩

end Lowering

namespace Expr

variable {d : TypeDefaults} {bindings : Bindings} {op : Operator} {value : Value} {code : Int}
  {other : Expr} {t : ValueType} {e : Enumeration} {o : Sql} {ps qs : List BoundParameter}

theorem lower_binary_of_isNullConstant {left right : Expr} (hleft : left.isNullConstant = false)
    (hright : right.isNullConstant = false) : (binary op left right).lower d bindings = (do
      let l ← Lowering.against (right.type? bindings) left (left.lower d bindings)
      let r ← Lowering.against (left.type? bindings) right (right.lower d bindings)
      return Lowering.combine op (left.type? bindings) (right.type? bindings) l r) := by
  rw [lower]
  simp only [hleft, hright, Bool.and_false, Bool.false_eq_true, if_false]

theorem isNullConstant_of_type? (h : other.type? bindings = some t) :
    other.isNullConstant = false := by
  unfold isNullConstant
  split
  · cases h
  · rfl

theorem whole?_or_bigInt (h : value.number? = some code) :
    value.whole? = some code ∨ ∃ n, value = .bigInt n := by
  cases value with
  | int | uint => exact Or.inl h
  | bigInt n => exact Or.inr ⟨n, rfl⟩
  | _ => cases h

theorem type?_of_number? (h : value.number? = some code) :
    ∃ c, value.type? = some c ∧ c.isInteger = true ∧ (constant value).isNullConstant = false := by
  cases value with
  | int | uint | bigInt => exact ⟨_, rfl, rfl, rfl⟩
  | _ => cases h

/-- Beside an operand of an enumeration's type, the constant is lowered on its own and then put
beside the operand. -/
theorem run_lower_beside (hcode : value.number? = some code) (ht : other.type? bindings = some t)
    (henum : t.underlying = .enumeration e) (hother : (other.lower d bindings).run ps = .ok (o, qs))
    (op : Operator) (constantFirst : Bool) :
    (∀ x, Lowering.against (some t) (.constant value) (pure (.raw value.literal)) = pure x →
      ((beside constantFirst op value other).lower d bindings).run ps =
        .ok (Sql.beside constantFirst op x o, qs)) ∧
    ∀ cause, Lowering.against (some t) (.constant value) (pure (.raw value.literal)) =
        Lowering.refuse (.constant value) cause →
      ∃ fault, ((beside constantFirst op value other).lower d bindings).run ps = .error fault := by
  obtain ⟨c, hc, hinteger, hvalue⟩ := type?_of_number? hcode
  have hnull := isNullConstant_of_type? ht
  have hpeer : Lowering.against (some c) other (other.lower d bindings) = other.lower d bindings :=
    Lowering.against_whole hinteger other _
  have hconstant : (constant value).lower d bindings = pure (.raw value.literal) := by rw [lower]
  have htype : (constant value).type? bindings = some c := by rw [type?, hc]
  have hwritten := Lowering.combine_enumeration op hinteger henum
  cases constantFirst with
  | true =>
    have hlower : (beside true op value other).lower d bindings = _ :=
      lower_binary_of_isNullConstant hvalue hnull
    simp only [htype, ht, hpeer, hconstant] at hlower
    constructor
    · intro x hx
      rw [hlower, hx, pure_bind, StateT.run_bind, hother]
      exact congrArg (fun s => Except.ok (s, qs)) (hwritten x o).1
    · intro cause hcause
      rw [hlower, hcause]
      exact ⟨_, rfl⟩
  | false =>
    have hlower : (beside false op value other).lower d bindings = _ :=
      lower_binary_of_isNullConstant hnull hvalue
    simp only [htype, ht, hpeer, hconstant] at hlower
    constructor
    · intro x hx
      rw [hlower, hx, StateT.run_bind, hother]
      exact congrArg (fun s => Except.ok (s, qs)) (hwritten o x).2
    · intro cause hcause
      rw [hlower, hcause, StateT.run_bind, hother]
      exact ⟨_, rfl⟩

/-! ## Names and numbers -/

/-- A number does not begin with a quote, as a name does. -/
theorem literal_ne_name (h : value.number? = some code) (name : String) :
    value.literal ≠ Text.literal name := by
  intro heq
  rcases whole?_or_bigInt h with hword | ⟨n, rfl⟩
  · have hquote : '\'' ∈ (toString code).toList := by
      rw [← Value.literal_of_whole? hword, heq, Text.toList_literal]
      exact List.mem_cons_self
    rcases Text.mem_toString_int hquote with hc | hc <;> exact absurd hc (by decide)
  · have hfirst := congrArg (fun s => s.toList.head?) heq
    simp [Value.literal, Text.toList_literal] at hfirst

theorem number_ne_name (h : value.number? = some code) (name : String) (constantFirst : Bool) :
    Sql.beside constantFirst op (.raw (Text.literal name)) o ≠
      Sql.beside constantFirst op (.raw value.literal) o := by
  intro heq
  apply literal_ne_name h name
  cases constantFirst <;> simpa [Sql.beside] using heq.symm

/-- Kept in a word, the constant is a name or refused whatever the operator. -/
theorem writesCode_word_iff (hcode : value.number? = some code) (hword : value.whole? = some code)
    (ht : other.type? bindings = some t) (henum : t.underlying = .enumeration e)
    (hother : (other.lower d bindings).run ps = .ok (o, qs)) (constantFirst : Bool) :
    WritesCode op e value code (Sql.beside constantFirst op · o) qs
        (((beside constantFirst op value other).lower d bindings).run ps) ↔
      ¬op.isArithmetic = true := by
  obtain ⟨hok, herror⟩ := run_lower_beside hcode ht henum hother op constantFirst
  rcases Lowering.against_word henum hword with ⟨m, hmem, hm, hnamed⟩ | ⟨hnone, cause, hrefused⟩
  · rw [hok _ hnamed]
    constructor
    · intro hrule harithmetic
      have hcounted := Except.ok.inj (hrule.counted harithmetic)
      exact number_ne_name hcode _ _ (congrArg Prod.fst hcounted)
    · intro hop
      exact ⟨fun _ _ => ⟨m, hmem, hm, rfl⟩, fun _ hnomember => absurd hm (hnomember m hmem),
        fun harithmetic => absurd harithmetic hop⟩
  · obtain ⟨fault, hfault⟩ := herror cause hrefused
    rw [hfault]
    constructor
    · intro hrule harithmetic
      cases hrule.counted harithmetic
    · intro hop
      exact ⟨fun _ ⟨k, hk, hkcode⟩ => absurd hkcode (hnone k hk), fun _ _ => ⟨fault, rfl⟩,
        fun harithmetic => absurd harithmetic hop⟩

/-- Kept in no word, the constant is a number whatever the operator. -/
theorem writesCode_bigInt_iff {n : BigInteger} (hcode : (Value.bigInt n).number? = some code)
    (ht : other.type? bindings = some t) (henum : t.underlying = .enumeration e)
    (hother : (other.lower d bindings).run ps = .ok (o, qs)) (constantFirst : Bool) :
    WritesCode op e (.bigInt n) code (Sql.beside constantFirst op · o) qs
        (((beside constantFirst op (.bigInt n) other).lower d bindings).run ps) ↔
      ¬op.isComparison = true := by
  obtain ⟨hok, _⟩ := run_lower_beside hcode ht henum hother op constantFirst
  rw [hok _ (Lowering.against_bigInt t n _)]
  constructor
  · intro hrule hcompared
    by_cases hmember : ∃ m ∈ e.members, m.code.toInt = code
    · obtain ⟨m, _, _, hnamed⟩ := hrule.named hcompared hmember
      exact number_ne_name hcode _ _ (congrArg Prod.fst (Except.ok.inj hnamed)).symm
    · obtain ⟨fault, hfault⟩ := hrule.refused hcompared fun m hm h => hmember ⟨m, hm, h⟩
      cases hfault
  · intro hop
    exact ⟨fun hcompared => absurd hcompared hop, fun hcompared => absurd hcompared hop,
      fun _ => rfl⟩

/-! ## Laws -/

/-- A whole constant beside an operand of an enumeration's type is written as the rule has it
exactly where it is compared and kept in a word, or calculated with and kept in none. -/
theorem code_is_written_iff (hcode : value.number? = some code)
    (ht : other.type? bindings = some t) (henum : t.underlying = .enumeration e)
    (hother : (other.lower d bindings).run ps = .ok (o, qs)) (constantFirst : Bool) :
    WritesCode op e value code (Sql.beside constantFirst op · o) qs
        (((beside constantFirst op value other).lower d bindings).run ps) ↔
      (op.isComparison = true → value.whole? = some code) ∧
        (op.isArithmetic = true → value.whole? = none) := by
  rcases whole?_or_bigInt hcode with hword | ⟨n, rfl⟩
  · rw [writesCode_word_iff hcode hword ht henum hother]
    simp [hword]
  · have hword : (Value.bigInt n).whole? = none := rfl
    rw [writesCode_bigInt_iff hcode ht henum hother]
    simp [hword]

/-- An element of an array is compared with the name of a member, also where both may be null; a
code beyond the signed words is no member's. -/
theorem element_is_compared_by_name :
    let status : Enumeration := ⟨"Status", [⟨"Active", 1⟩, ⟨"Gone", 2⟩]⟩
    let element := Expr.index
      (.column none "History" (.nullable (.array (.nullable (.enumeration status)))))
      (.constant (.int 0))
    let o := Sql.function "arrayElement" [.identifier "\"History\"", .raw "1"]
    element.type? [] = some (.nullable (.enumeration status)) ∧
      (element.lower {} []).run [] = .ok (o, []) ∧
      WritesCode .ne status (.uint 2) 2 (Sql.beside true .ne · o) []
        (((beside true .ne (.uint 2) element).lower {} []).run []) ∧
      ∃ fault, ((beside false .lt (.uint 18446744073709551615) element).lower {} []).run [] =
        .error fault := by
  intro status element o
  have htype : element.type? [] = some (.nullable (.enumeration status)) := by rfl
  have hrun : (element.lower {} []).run [] = .ok (o, []) := by rfl
  have hgone : WritesCode .ne status (.uint 2) 2 (Sql.beside true .ne · o) []
      (((beside true .ne (.uint 2) element).lower {} []).run []) :=
    (code_is_written_iff rfl htype rfl hrun true).mpr ⟨fun _ => rfl, nofun⟩
  have hbeyond : WritesCode .lt status (.uint 18446744073709551615) 18446744073709551615
      (Sql.beside false .lt · o) []
      (((beside false .lt (.uint 18446744073709551615) element).lower {} []).run []) :=
    (code_is_written_iff rfl htype rfl hrun false).mpr ⟨fun _ => rfl, nofun⟩
  exact ⟨htype, hrun, hgone, hbeyond.refused rfl (by decide)⟩

/-- Added to, an operand of an enumeration's type gets a name beside it, and compared with a
number that is kept in no word it keeps the number. -/
theorem code_is_named_in_arithmetic :
    let status : Enumeration := ⟨"Status", [⟨"Active", 1⟩, ⟨"Gone", 2⟩]⟩
    let column := Expr.column none "Status" (.enumeration status)
    let o := Sql.identifier "\"Status\""
    let one : BigInteger := ⟨false, ['1'], by decide, by decide⟩
    ((Expr.binary .add column (.constant (.int 1))).lower {} []).run [] =
        .ok (.binary o "+" (.raw "'Active'"), []) ∧
      ¬WritesCode .add status (.int 1) 1 (Sql.beside false .add · o) []
        (((Expr.binary .add column (.constant (.int 1))).lower {} []).run []) ∧
      ((Expr.binary .eq column (.constant (.bigInt one))).lower {} []).run [] =
        .ok (.binary o "=" (.raw "toInt256('1')"), []) ∧
      ¬WritesCode .eq status (.bigInt one) 1 (Sql.beside false .eq · o) []
        (((Expr.binary .eq column (.constant (.bigInt one))).lower {} []).run []) := by
  intro status column o one
  have hsum : ((Expr.binary .add column (.constant (.int 1))).lower {} []).run [] =
      .ok (.binary o "+" (.raw "'Active'"), []) := by rfl
  have hliteral : (Value.bigInt one).literal = "toInt256('1')" := by decide
  have hcolumn : (column.lower {} []).run [] = .ok (o, []) := by rfl
  refine ⟨hsum, fun hrule => (writesCode_word_iff rfl rfl rfl rfl hcolumn false).mp hrule rfl, ?_,
    fun hrule => (writesCode_bigInt_iff rfl rfl rfl hcolumn false).mp hrule rfl⟩
  rw [← hliteral]
  rfl

end Expr

end ColumnStore
