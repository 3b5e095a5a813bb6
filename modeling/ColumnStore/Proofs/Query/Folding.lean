-- Constants that are calculated before a query runs. What an expression over
-- whole numbers comes to is told without any words; folding gives that number
-- where it and all numbers on the way to it are words, and nothing elsewhere.
import ColumnStore.Proofs.Query.Modifiers
import ColumnStore.Proofs.Query.Success
import ColumnStore.Proofs.Text.Quoted

namespace ColumnStore

/-! ## Whole numbers -/

/-- What the columns and the parameters of a query hold. -/
structure Assignment where
  column : ObjectName → Int
  parameter : String → Int

/-- The whole number that a constant is. -/
def Value.whole? : Value → Option Int
  | int n => some n.toInt
  | uint n => some n.toNat
  | _ => none

namespace Operator

/-- The exact result of arithmetic on whole numbers. Quotients go toward zero, the remainder has
the sign of the dividend, and there are neither by zero. -/
def onWhole? (op : Operator) (a b : Int) : Option Int :=
  match op with
  | add => some (a + b)
  | sub => some (a - b)
  | mul => some (a * b)
  | div => if b = 0 then none else some (a.tdiv b)
  | mod => if b = 0 then none else some (a.tmod b)
  | _ => none

/-- Whether the comparison holds of two whole numbers. -/
def compares? (op : Operator) (a b : Int) : Option Bool :=
  match op with
  | eq => some (a = b)
  | ne => some (a ≠ b)
  | lt => some (a < b)
  | le => some (a ≤ b)
  | gt => some (b < a)
  | ge => some (b ≤ a)
  | _ => none

end Operator

namespace Expr

/-- The number that an expression over whole numbers comes to, if no divisor in what is calculated
is zero. A choice calculates the one side that is chosen. -/
def whole? (ρ : Assignment) : Expr → Option Int
  | constant v => v.whole?
  | column table name _ => some (ρ.column (ObjectName.mk table name).written)
  | parameter name _ => some (ρ.parameter name)
  | negate operand => (operand.whole? ρ).map (-·)
  | binary op left right => do op.onWhole? (← left.whole? ρ) (← right.whole? ρ)
  | conditional (binary op left right) whenTrue whenFalse => do
    if ← op.compares? (← left.whole? ρ) (← right.whole? ρ) then whenTrue.whole? ρ
    else whenFalse.whole? ρ
  | _ => none

end Expr

/-! ## Words -/

/-- The number is one of a signed word of 64 bits. -/
def FitsWord (v : Int) : Prop := -9223372036854775808 ≤ v ∧ v ≤ 9223372036854775807

instance (v : Int) : Decidable (FitsWord v) := inferInstanceAs (Decidable (_ ∧ _))

theorem fitsWord_toInt (n : Int64) : FitsWord n.toInt := ⟨n.le_toInt, n.toInt_le⟩

/-- The word of a number is the one with that value. -/
theorem exactInt64?_eq_some_iff {v : Int} {n : Int64} : exactInt64? v = some n ↔ n.toInt = v := by
  have hmin : Int64.minValue.toInt = -9223372036854775808 := rfl
  have hmax : Int64.maxValue.toInt = 9223372036854775807 := rfl
  unfold exactInt64?
  rw [hmin, hmax]
  split
  · rename_i hfits
    have hword : (Int64.ofInt v).toInt = v :=
      Int64.toInt_ofInt_of_le hfits.1 (Int.lt_add_one_of_le hfits.2)
    constructor
    · rintro ⟨⟩
      exact hword
    · rintro rfl
      rw [Int64.ofInt_toInt]
  · rename_i hfits
    constructor
    · intro h
      cases h
    · rintro rfl
      exact absurd (fitsWord_toInt n) hfits

/-- Arithmetic on words is the exact one, where its result is a word. -/
theorem Arithmetic.onInt64?_eq {op : Operator} {arith : Arithmetic} {a b : Int64}
    (hop : op.arithmetic? = some arith) :
    arith.onInt64? a b = (op.onWhole? a.toInt b.toInt).bind exactInt64? := by
  have hzero : b = 0 ↔ b.toInt = 0 := Int64.toInt_inj.symm
  cases op <;> cases hop
  case div =>
    by_cases hb : b.toInt = 0 <;> simp [onInt64?, Operator.onWhole?, hzero, hb]
  all_goals rfl

theorem Value.literal_of_whole? {value : Value} {v : Int} (h : value.whole? = some v) :
    value.literal = toString v := by
  cases value with
  | int | uint =>
    cases h
    rfl
  | _ => cases h

/-- Only a word has a negative that is a whole number. -/
theorem Value.whole?_negate {w value : Value} {v : Int} (h : w.negate? = some value)
    (hv : value.whole? = some v) : ∃ m, w = .int m ∧ v = -m.toInt := by
  cases w with
  | int m =>
    obtain ⟨n, hn, rfl⟩ := Option.map_eq_some_iff.mp h
    cases hv
    exact ⟨m, rfl, exactInt64?_eq_some_iff.mp hn⟩
  | float | decimal =>
    cases h
    cases hv
  | _ => cases h

/-- Only from two words a whole number is calculated. -/
theorem Arithmetic.whole?_onValues {arith : Arithmetic} {l r value : Value} {v : Int}
    (h : arith.onValues? l r = some value) (hv : value.whole? = some v) :
    ∃ a b n, l = .int a ∧ r = .int b ∧ arith.onInt64? a b = some n ∧ v = n.toInt := by
  unfold onValues? at h
  split at h
  · rename_i a b
    obtain ⟨n, hn, rfl⟩ := Option.map_eq_some_iff.mp h
    cases hv
    exact ⟨a, b, n, rfl, rfl, hn, rfl⟩
  · obtain ⟨_, _, rfl⟩ := Option.map_eq_some_iff.mp h
    cases hv
  · obtain ⟨_, _, h⟩ := Option.bind_eq_some_iff.mp h
    obtain ⟨_, _, h⟩ := Option.bind_eq_some_iff.mp h
    dsimp only at h
    split at h <;> cases h
    cases hv

namespace Expr

/-! ## Every part -/

theorem contains_iff {e x : Expr} : e.Contains x ↔ x = e ∨ ∃ part ∈ e.parts, part.Contains x := by
  unfold Contains
  rw [Relation.ReflTransGen.cases_head_iff, eq_comm]

theorem forall_contains_iff {e : Expr} {p : Expr → Prop} :
    (∀ x, e.Contains x → p x) ↔ p e ∧ ∀ part ∈ e.parts, ∀ x, part.Contains x → p x := by
  simp only [contains_iff (e := e)]
  constructor
  · intro h
    exact ⟨h e (Or.inl rfl), fun part hpart x hx => h x (Or.inr ⟨part, hpart, hx⟩)⟩
  · rintro ⟨he, hparts⟩ x (rfl | ⟨part, hpart, hx⟩)
    · exact he
    · exact hparts part hpart x hx

/-! ## Folding -/

variable {ρ : Assignment}

/-- What folds to a whole number comes to that number. -/
theorem whole?_of_fold? {e : Expr} {value : Value} {v : Int} (h : e.fold? = some value)
    (hv : value.whole? = some v) : e.whole? ρ = some v := by
  fun_induction fold? e generalizing value v with
  | case1 =>
    cases h
    exact hv
  | case2 operand ih =>
    obtain ⟨w, hw, h⟩ := Option.bind_eq_some_iff.mp h
    obtain ⟨m, rfl, rfl⟩ := Value.whole?_negate h hv
    rw [whole?, ih hw rfl]
    rfl
  | case3 op left right ihl ihr =>
    obtain ⟨l, hl, h⟩ := Option.bind_eq_some_iff.mp h
    obtain ⟨r, hr, h⟩ := Option.bind_eq_some_iff.mp h
    obtain ⟨arith, hop, h⟩ := Option.bind_eq_some_iff.mp h
    obtain ⟨a, b, n, rfl, rfl, hword, rfl⟩ := Arithmetic.whole?_onValues h hv
    rw [Arithmetic.onInt64?_eq hop] at hword
    obtain ⟨v, hresult, hn⟩ := Option.bind_eq_some_iff.mp hword
    rw [whole?, ihl hl rfl, ihr hr rfl, exactInt64?_eq_some_iff.mp hn]
    exact hresult
  | case4 => cases h

/-- A calculation with signed words. -/
inductive IsCalculation : Expr → Prop
  | word (n : Int64) : IsCalculation (constant (.int n))
  | negate {operand : Expr} (h : IsCalculation operand) : IsCalculation (negate operand)
  | binary {op : Operator} {left right : Expr} (hop : op ∈ [.add, .sub, .mul, .div])
      (hleft : IsCalculation left) (hright : IsCalculation right) :
      IsCalculation (binary op left right)

/-- The expression comes to a word. -/
def ComesToWord (ρ : Assignment) (e : Expr) : Prop := ∃ v, e.whole? ρ = some v ∧ FitsWord v

theorem IsCalculation.of_contains {e x : Expr} (h : e.IsCalculation) (hx : e.Contains x) :
    x.IsCalculation := by
  induction hx with
  | refl => exact h
  | tail _ hpart ih =>
    cases ih with
    | word => cases hpart
    | negate hoperand =>
      rw [List.mem_singleton.mp hpart]
      exact hoperand
    | binary _ hleft hright =>
      rcases List.mem_pair.mp hpart with rfl | rfl
      · exact hleft
      · exact hright

/-- A calculation folds to nothing but a word. -/
theorem IsCalculation.eq_int {e : Expr} (h : e.IsCalculation) {value : Value}
    (hfold : e.fold? = some value) : ∃ n, value = .int n := by
  induction h generalizing value with
  | word n =>
    cases hfold
    exact ⟨n, rfl⟩
  | negate _ ih =>
    obtain ⟨w, hw, hfold⟩ := Option.bind_eq_some_iff.mp hfold
    obtain ⟨m, rfl⟩ := ih hw
    obtain ⟨n, _, rfl⟩ := Option.map_eq_some_iff.mp hfold
    exact ⟨n, rfl⟩
  | binary _ _ _ ihl ihr =>
    obtain ⟨l, hl, hfold⟩ := Option.bind_eq_some_iff.mp hfold
    obtain ⟨r, hr, hfold⟩ := Option.bind_eq_some_iff.mp hfold
    obtain ⟨arith, _, hfold⟩ := Option.bind_eq_some_iff.mp hfold
    obtain ⟨a, rfl⟩ := ihl hl
    obtain ⟨b, rfl⟩ := ihr hr
    obtain ⟨n, _, rfl⟩ := Option.map_eq_some_iff.mp hfold
    exact ⟨n, rfl⟩

/-- A calculation all of whose parts come to words folds. -/
theorem IsCalculation.exists_fold? {e : Expr} (h : e.IsCalculation)
    (hparts : ∀ x, e.Contains x → x.ComesToWord ρ) : ∃ n, e.fold? = some (.int n) := by
  have hword : ∀ {v}, FitsWord v → exactInt64? v = some (Int64.ofInt v) := fun hfits =>
    exactInt64?_eq_some_iff.mpr (Int64.toInt_ofInt_of_le hfits.1 (Int.lt_add_one_of_le hfits.2))
  induction h with
  | word n => exact ⟨n, rfl⟩
  | @negate operand _ ih =>
    obtain ⟨⟨v, hv, hfits⟩, hbelow⟩ := forall_contains_iff.mp hparts
    obtain ⟨m, hm⟩ := ih (hbelow operand (List.mem_singleton_self operand))
    rw [whole?, whole?_of_fold? hm rfl] at hv
    cases hv
    refine ⟨.ofInt (-m.toInt), ?_⟩
    rw [fold?, hm]
    exact congrArg (Option.map Value.int) (hword hfits)
  | @binary op left right hop _ _ ihl ihr =>
    obtain ⟨⟨v, hv, hfits⟩, hbelow⟩ := forall_contains_iff.mp hparts
    obtain ⟨a, ha⟩ := ihl (hbelow left (by simp [parts]))
    obtain ⟨b, hb⟩ := ihr (hbelow right (by simp [parts]))
    obtain ⟨arith, harith⟩ : ∃ arith, op.arithmetic? = some arith := by
      cases op <;> first | exact ⟨_, rfl⟩ | exact absurd hop (by decide)
    rw [whole?, whole?_of_fold? ha rfl, whole?_of_fold? hb rfl] at hv
    have hresult : arith.onInt64? a b = some (Int64.ofInt v) := by
      rw [Arithmetic.onInt64?_eq harith]
      exact Option.bind_eq_some_iff.mpr ⟨v, hv, hword hfits⟩
    refine ⟨.ofInt v, ?_⟩
    rw [fold?, ha, hb, harith]
    exact congrArg (Option.map Value.int) hresult

/-- A calculation folds to the word that it comes to, if every part of it comes to a word: none
divides by zero and none leaves the range, whatever the whole would come to. Else it does not
fold. -/
theorem calculation_folds_exactly (ρ : Assignment) {e : Expr} (h : e.IsCalculation)
    (value : Value) :
    e.fold? = some value ↔ ∃ n, value = .int n ∧ e.whole? ρ = some n.toInt ∧
      ∀ x, e.Contains x → x.ComesToWord ρ := by
  constructor
  · intro hfold
    obtain ⟨n, rfl⟩ := h.eq_int hfold
    refine ⟨n, rfl, whole?_of_fold? hfold rfl, fun x hx => ?_⟩
    obtain ⟨w, hw⟩ := fold?_of_contains hfold hx
    obtain ⟨m, rfl⟩ := (h.of_contains hx).eq_int hw
    exact ⟨m.toInt, whole?_of_fold? hw rfl, fitsWord_toInt m⟩
  · rintro ⟨n, rfl, hvalue, hparts⟩
    obtain ⟨m, hm⟩ := h.exists_fold? hparts
    rw [whole?_of_fold? hm rfl, Option.some.injEq, Int64.toInt_inj] at hvalue
    rw [hm, hvalue]

/-- The largest word plus one less one is the largest word, and yet not calculated. Its half is,
without the fraction. -/
theorem overflow_on_the_way_is_not_folded :
    let ρ : Assignment := ⟨fun _ => 0, fun _ => 0⟩
    let one := Expr.constant (.int 1)
    let largest := Expr.constant (.int Int64.maxValue)
    let e := Expr.binary .sub (.binary .add largest one) one
    let half := Expr.negate (.binary .div largest (.constant (.int 2)))
    e.IsCalculation ∧ e.whole? ρ = some Int64.maxValue.toInt ∧ (∀ value, e.fold? ≠ some value) ∧
      half.IsCalculation ∧ half.fold? = some (.int (-4611686018427387903)) := by
  intro ρ one largest e half
  have hsum : (binary .add largest one).IsCalculation := .binary (by decide) (.word _) (.word _)
  have he : e.IsCalculation := .binary (by decide) hsum (.word _)
  have hhalf : half.IsCalculation := .negate (.binary (by decide) (.word _) (.word _))
  refine ⟨he, by decide, fun value hfold => ?_, hhalf, ?_⟩
  · obtain ⟨_, _, _, hparts⟩ := (calculation_folds_exactly ρ he value).mp hfold
    obtain ⟨v, hv, hfits⟩ := hparts (.binary .add largest one) (.single (by simp [parts, e]))
    have hvalue : (binary .add largest one).whole? ρ = some 9223372036854775808 := by decide
    rw [hvalue] at hv
    cases hv
    exact absurd hfits.2 (by decide)
  · refine (calculation_folds_exactly ρ hhalf _).mpr ⟨_, rfl, by decide, ?_⟩
    have hword : ∀ n x, (constant (.int n)).Contains x → x.ComesToWord ρ := fun n =>
      forall_contains_iff.mpr ⟨⟨_, rfl, fitsWord_toInt n⟩, List.forall_mem_nil _⟩
    refine forall_contains_iff.mpr ⟨⟨-4611686018427387903, by decide, by decide⟩, ?_⟩
    refine List.forall_mem_singleton.mpr (forall_contains_iff.mpr ?_)
    refine ⟨⟨4611686018427387903, by decide, by decide⟩, ?_⟩
    exact List.forall_mem_cons.mpr ⟨hword _, List.forall_mem_singleton.mpr (hword _)⟩

end Expr

end ColumnStore
