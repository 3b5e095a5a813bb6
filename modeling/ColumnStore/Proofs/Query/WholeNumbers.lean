-- Sums and products of whole constants, signed and unsigned ones mixed. They
-- are folded to whole numbers as long as none of the constants is unsigned;
-- with one unsigned constant on a side the double nearest to each is taken.
import ColumnStore.Proofs.Query.Folding

namespace ColumnStore

/-! ## Whole values -/

namespace Value

variable {value : Value} {v : Int}

/-- A whole value in the range of a word is that word. -/
theorem exists_toInt64?_of_whole? (h : value.whole? = some v) (hfits : FitsWord v) :
    ∃ n, value.toInt64? = some n ∧ n.toInt = v := by
  cases value with
  | int n =>
    cases h
    exact ⟨n, rfl, rfl⟩
  | uint n =>
    cases h
    have hn : n.toNat < Nat.pow 2 63 := by
      have := hfits.2
      show n.toNat < 9223372036854775808
      omega
    exact ⟨.ofNat n.toNat, if_pos hn, Int64.toInt_ofNat_of_lt hn⟩
  | _ => cases h

theorem isSampleSize_of_whole? (h : value.whole? = some v) (hpositive : 1 ≤ v) :
    Select.isSampleSize value = true := by
  cases value with
  | int n =>
    cases h
    exact decide_eq_true hpositive
  | uint n =>
    cases h
    exact decide_eq_true (by omega)
  | _ => cases h

end Value

namespace Expr

variable {ρ : Assignment} {e : Expr} {value : Value} {v : Int}

/-! ## Mixtures -/

/-- Whole constants under sums, differences and products. -/
inductive IsMixture : Expr → Prop
  | signed (n : Int64) : IsMixture (constant (.int n))
  | unsigned (n : UInt64) : IsMixture (constant (.uint n))
  | binary {op : Operator} {left right : Expr} (hop : op ∈ [.add, .sub, .mul])
      (hleft : IsMixture left) (hright : IsMixture right) : IsMixture (binary op left right)

/-- No constant in the expression is unsigned. -/
def IsSigned (e : Expr) : Prop := ∀ n, ¬ e.Contains (constant (.uint n))

theorem isSigned_binary {op : Operator} {left right : Expr} :
    (binary op left right).IsSigned ↔ left.IsSigned ∧ right.IsSigned := by
  unfold IsSigned
  simp only [contains_iff (e := binary op left right), parts, reduceCtorEq, false_or]
  simp only [List.mem_cons, List.not_mem_nil, or_false, exists_eq_or_imp, exists_eq_left, not_or,
    forall_and]

theorem IsMixture.isCalculation (h : e.IsMixture) (hsigned : e.IsSigned) : e.IsCalculation := by
  induction h with
  | signed n => exact .word n
  | unsigned n => exact absurd .refl (hsigned n)
  | binary hop _ _ ihl ihr =>
    obtain ⟨hleft, hright⟩ := isSigned_binary.mp hsigned
    refine .binary ?_ (ihl hleft) (ihr hright)
    simp only [List.mem_cons, List.not_mem_nil, or_false] at hop ⊢
    tauto

/-- Only from two words an operation is folded to a whole number. -/
theorem exists_fold?_of_binary {op : Operator} {left right : Expr}
    (hfold : (binary op left right).fold? = some value) (hv : value.whole? = some v) :
    ∃ a b, left.fold? = some (.int a) ∧ right.fold? = some (.int b) := by
  obtain ⟨l, hl, hfold⟩ := Option.bind_eq_some_iff.mp hfold
  obtain ⟨r, hr, hfold⟩ := Option.bind_eq_some_iff.mp hfold
  obtain ⟨arith, _, hfold⟩ := Option.bind_eq_some_iff.mp hfold
  obtain ⟨a, b, _, rfl, rfl, _⟩ := Arithmetic.whole?_onValues hfold hv
  exact ⟨a, b, hl, hr⟩

/-- Only signed constants are folded to a word. -/
theorem IsMixture.isSigned_of_fold? (h : e.IsMixture) {n : Int64}
    (hfold : e.fold? = some (.int n)) : e.IsSigned := by
  induction h generalizing n with
  | signed k =>
    intro m hm
    rcases contains_iff.mp hm with heq | ⟨_, hpart, _⟩
    · cases heq
    · cases hpart
  | unsigned m => cases hfold
  | binary _ _ _ ihl ihr =>
    obtain ⟨a, b, hl, hr⟩ := exists_fold?_of_binary hfold rfl
    exact isSigned_binary.mpr ⟨ihl hl, ihr hr⟩

/-- An operation that is folded to a whole number is one on signed constants. -/
theorem IsMixture.constant_or_isSigned (h : e.IsMixture) (hfold : e.fold? = some value)
    (hv : value.whole? = some v) : (∃ value, e = constant value) ∨ e.IsSigned := by
  cases h with
  | signed n => exact Or.inl ⟨.int n, rfl⟩
  | unsigned n => exact Or.inl ⟨.uint n, rfl⟩
  | binary _ hleft hright =>
    obtain ⟨a, b, hl, hr⟩ := exists_fold?_of_binary hfold hv
    exact Or.inr (isSigned_binary.mpr ⟨hleft.isSigned_of_fold? hl, hright.isSigned_of_fold? hr⟩)

/-! ## What a whole number is used for -/

/-- The expression is taken for the whole number: it folds to it, and it is that number as an index,
as the size of a sample and as the value of a setting. -/
structure FoldsWhole (e : Expr) (v : Int) : Prop where
  folded : ∃ value, e.fold? = some value ∧ value.whole? = some v
  index : ∃ n : Int64, n.toInt = v ∧
    ∀ owner lowered, Lowering.shifted owner e lowered = Lowering.shiftedConstant owner n
  sample : 1 ≤ v → Select.sampleText e = .ok (toString v)
  setting : ∀ name, Text.isPlainName name = true →
    Select.settingText name e = .ok (name ++ " = " ++ toString v)

theorem foldsWhole_of_fold? (hfold : e.fold? = some value) (hv : value.whole? = some v)
    (hfits : FitsWord v) : e.FoldsWhole v where
  folded := ⟨value, hfold, hv⟩
  index := by
    obtain ⟨n, hn, hvalue⟩ := Value.exists_toInt64?_of_whole? hv hfits
    refine ⟨n, hvalue, fun owner lowered => ?_⟩
    simp only [Lowering.shifted, hfold, hn]
  sample := by
    intro hpositive
    simp only [Select.sampleText, hfold, Value.isSampleSize_of_whole? hv hpositive, if_true,
      Value.literal_of_whole? hv]
  setting := by
    intro name hname
    simp only [Select.settingText, hname, hfold, ← Value.literal_of_whole? hv]
    cases value with
    | int | uint => rfl
    | _ => cases hv

/-! ## The law -/

/-- A mixture of whole constants whose parts all come to words folds to the number it comes to
exactly where it is a single constant or has no unsigned constant. -/
theorem mixture_folds_whole_iff (ρ : Assignment) (h : e.IsMixture)
    (hparts : ∀ x, e.Contains x → x.ComesToWord ρ) :
    ∃ v, e.whole? ρ = some v ∧
      (e.FoldsWhole v ↔ (∃ value, e = constant value) ∨ e.IsSigned) := by
  obtain ⟨v, hv, hfits⟩ := hparts e .refl
  refine ⟨v, hv, ?_⟩
  constructor
  · intro hwhole
    obtain ⟨value, hfold, hvalue⟩ := hwhole.folded
    exact h.constant_or_isSigned hfold hvalue
  · rintro (⟨value, rfl⟩ | hsigned)
    · exact foldsWhole_of_fold? rfl hv hfits
    · obtain ⟨n, hn⟩ := (h.isCalculation hsigned).exists_fold? hparts
      rw [whole?_of_fold? hn rfl] at hv
      exact foldsWhole_of_fold? hn hv hfits

/-- A square that is almost the largest word is folded exactly. -/
theorem large_square_folds_whole :
    let ρ : Assignment := ⟨fun _ => 0, fun _ => 0⟩
    let root := Expr.constant (.int 3037000499)
    let e := Expr.binary .sub (.binary .mul root root) (.constant (.int (-1)))
    e.IsMixture ∧ (∀ x, e.Contains x → x.ComesToWord ρ) ∧
      e.whole? ρ = some 9223372030926249002 ∧ e.FoldsWhole 9223372030926249002 := by
  intro ρ root e
  have hsquare : (Expr.binary .mul root root).IsMixture := .binary (by decide) (.signed _) (.signed _)
  have he : e.IsMixture := .binary (by decide) hsquare (.signed _)
  have hword : ∀ n x, (constant (.int n)).Contains x → x.ComesToWord ρ := fun n =>
    forall_contains_iff.mpr ⟨⟨_, rfl, fitsWord_toInt n⟩, List.forall_mem_nil _⟩
  have hparts : ∀ x, e.Contains x → x.ComesToWord ρ := by
    refine forall_contains_iff.mpr ⟨⟨9223372030926249002, by decide, by decide⟩, ?_⟩
    refine List.forall_mem_cons.mpr ⟨?_, List.forall_mem_singleton.mpr (hword _)⟩
    refine forall_contains_iff.mpr ⟨⟨9223372030926249001, by decide, by decide⟩, ?_⟩
    exact List.forall_mem_cons.mpr ⟨hword _, List.forall_mem_singleton.mpr (hword _)⟩
  have hsigned : e.IsSigned := he.isSigned_of_fold? (n := 9223372030926249002) rfl
  obtain ⟨v, hv, hiff⟩ := mixture_folds_whole_iff ρ he hparts
  have hvalue : e.whole? ρ = some 9223372030926249002 := by decide
  cases hv.symm.trans hvalue
  exact ⟨he, hparts, hvalue, hiff.mpr (Or.inr hsigned)⟩

/-- An unsigned number that no double holds becomes another number by adding nothing to it: no
index, no size of a sample, and another value of a setting. -/
theorem unsigned_sum_loses_its_last_digit :
    let ρ : Assignment := ⟨fun _ => 0, fun _ => 0⟩
    let e := Expr.binary .add (.constant (.uint 9007199254740993)) (.constant (.int 0))
    e.IsMixture ∧ (∀ x, e.Contains x → x.ComesToWord ρ) ∧ e.whole? ρ = some 9007199254740993 ∧
      e.fold? = some (.float 9007199254740992.0) ∧
      (∀ owner, Lowering.shifted owner e (pure (.raw "0")) =
        Lowering.refuse owner (.indexNotInteger "9007199254740992")) ∧
      Select.sampleText e =
        .error (.inexpressible "SAMPLE binary +" (.sampleRange "9007199254740992")) ∧
      Select.settingText "n" e = .ok "n = 9007199254740992" := by
  intro ρ e
  have he : e.IsMixture := .binary (by decide) (.unsigned _) (.signed _)
  have hparts : ∀ x, e.Contains x → x.ComesToWord ρ := by
    refine forall_contains_iff.mpr ⟨⟨9007199254740993, by decide, by decide⟩, ?_⟩
    refine List.forall_mem_cons.mpr ⟨?_, List.forall_mem_singleton.mpr ?_⟩
    · exact forall_contains_iff.mpr ⟨⟨9007199254740993, by decide, by decide⟩, List.forall_mem_nil _⟩
    · exact forall_contains_iff.mpr ⟨⟨0, by decide, by decide⟩, List.forall_mem_nil _⟩
  exact ⟨he, hparts, by decide, rfl, fun _ => rfl, by decide +kernel, by decide +kernel⟩

end Expr

end ColumnStore
