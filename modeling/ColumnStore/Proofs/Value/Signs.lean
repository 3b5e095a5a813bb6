-- Whether a value is less than zero. Each kind of number has a sign of its own,
-- and a zero may have one as well, so the sign is compared with the number that
-- the value denotes. Columns that take no negative numbers go by the same sign.
import ColumnStore.Proofs.Text.Integer
import ColumnStore.Value.Basic
import Mathlib.Algebra.Order.Field.Basic
import Mathlib.Algebra.Order.Ring.Rat
import Mathlib.Tactic.NormNum
import Mathlib.Tactic.Positivity

namespace ColumnStore

/-! ## Numbers -/

/-- The number that the digits and the sign are written for. -/
def BigInteger.value (n : BigInteger) : Int :=
  let size : Nat := n.digits.foldl (fun size c => 10 * size + (c.toNat - '0'.toNat)) 0
  if n.negative then -size else size

/-- The number that the value denotes, without rounding. -/
def Value.rational? : Value → Option ℚ
  | int n => some n.toInt
  | uint n => some n.toNat
  | bigInt n => some n.value
  | decimal d => some (d.units / 10 ^ d.places)
  | _ => none

/-! ## Signs -/

theorem BigInteger.value_neg_iff (n : BigInteger) :
    n.value < 0 ↔ n.negative = true ∧ ¬∀ c ∈ n.digits, c = '0' := by
  have hzero := Text.digits_foldl_eq_zero_iff (List.all_eq_true.mp n.areDigits) (n := 0)
  rw [and_iff_right rfl] at hzero
  rw [← hzero]
  unfold value
  dsimp only
  cases n.negative with
  | false => simp
  | true => simp [Nat.pos_iff_ne_zero]

theorem Number.Decimal.units_neg_iff (d : Number.Decimal) :
    d.units < 0 ↔ (d.negative && !d.isZero) = true := by
  unfold units isZero
  cases d.negative with
  | false => simp
  | true => simp [Nat.pos_iff_ne_zero]

namespace Value

variable {v : Value} {q : ℚ}

/-- A big integer that is written as zero behind a minus sign. -/
def IsMinusZero : Value → Prop
  | bigInt n => n.negative = true ∧ ∀ c ∈ n.digits, c = '0'
  | _ => False

/-- A value has a sign where its number is less than zero, and besides where it is a minus zero. -/
theorem isNegative_iff (h : v.rational? = some q) :
    v.isNegative = true ↔ q < 0 ∨ v.IsMinusZero := by
  cases v with
  | int n =>
    cases h
    simp [isNegative, IsMinusZero, Int64.lt_iff_toInt_lt]
  | uint n =>
    cases h
    simp [isNegative, IsMinusZero]
  | bigInt n =>
    cases h
    rw [isNegative, IsMinusZero, Int.cast_lt_zero, n.value_neg_iff, ← and_or_left,
      and_iff_left (Classical.em _).symm]
  | decimal d =>
    cases h
    have hscale : (0 : ℚ) < 10 ^ d.places := by positivity
    simp only [isNegative, IsMinusZero, or_false]
    rw [div_lt_iff₀ hscale, zero_mul, Int.cast_lt_zero, d.units_neg_iff]
  | _ => cases h

theorem not_lt_zero_of_isMinusZero (h : v.rational? = some q) (hzero : v.IsMinusZero) : ¬q < 0 := by
  cases v with
  | bigInt n =>
    cases h
    rw [Int.cast_lt_zero, n.value_neg_iff]
    exact fun hneg => hneg.2 hzero.2
  | _ => cases hzero

/-! ## Columns -/

/-- A column of the type and options takes no number below zero. -/
def Unsigned (t : ValueType) (o : TypeOptions) : Prop :=
  t.isUnsigned = true ∨ t.underlying = .bigInteger ∧ o.unsignedBigInteger = true

theorem exists_validate_eq {t : ValueType} {o : TypeOptions} (ht : Unsigned t o)
    (hv : v.isNull = false) :
    ∃ fault, v.validate t o = if v.isNegative then .error fault else .ok () := by
  unfold validate
  rw [if_neg (Bool.eq_false_iff.mp hv)]
  rcases ht with ht | ⟨ht, ho⟩
  · unfold ValueType.isUnsigned at ht
    split at ht
    case h_6 => cases ht
    all_goals
      rename_i hunsigned
      rw [hunsigned]
      exact ⟨_, rfl⟩
  · rw [ht, ho]
    exact ⟨_, rfl⟩

theorem isNull_of_rational? (h : v.rational? = some q) : v.isNull = false := by
  cases v with
  | null => cases h
  | _ => rfl

theorem rejects_iff_isNegative {t : ValueType} {o : TypeOptions} (ht : Unsigned t o)
    (hv : v.rational? = some q) :
    (∃ fault, v.validate t o = .error fault) ↔ v.isNegative = true := by
  obtain ⟨fault, hvalidate⟩ := exists_validate_eq ht (isNull_of_rational? hv)
  rw [hvalidate]
  cases v.isNegative <;> simp

/-! ## Laws -/

theorem agrees_iff_of_isNegative (h : v.rational? = some q) :
    (v.isNegative = true ↔ q < 0) ↔ ¬v.IsMinusZero := by
  rw [isNegative_iff h, or_iff_left_iff_imp]
  constructor
  · exact fun himp hzero => not_lt_zero_of_isMinusZero h hzero (himp hzero)
  · exact fun hnone hzero => absurd hzero hnone

/-- A number counts as negative where it is less than zero, and an unsigned column rejects it there
and nowhere else, exactly where it is no minus zero. -/
theorem sign_is_arithmetic_iff (h : v.rational? = some q) :
    ((v.isNegative = true ↔ q < 0) ↔ ¬v.IsMinusZero) ∧
    ∀ t o, Unsigned t o →
      (((∃ fault, v.validate t o = .error fault) ↔ q < 0) ↔ ¬v.IsMinusZero) := by
  refine ⟨agrees_iff_of_isNegative h, fun t o ht => ?_⟩
  rw [rejects_iff_isNegative ht h]
  exact agrees_iff_of_isNegative h

/-- Zeros in front of other digits change nothing, and a decimal zero has no sign. -/
theorem padded_number_keeps_its_sign :
    let digits : BigInteger := ⟨true, ['0', '0', '7'], by decide, by decide⟩
    let padded := bigInt digits
    let zero := decimal ⟨true, 0, 2, by decide, by decide⟩
    let o : TypeOptions := { unsignedBigInteger := true }
    padded.rational? = some (-7) ∧ padded.isNegative = true ∧
      (∃ fault, padded.validate (.nullable .bigInteger) o = .error fault) ∧
      zero.rational? = some 0 ∧ zero.isNegative = false ∧
      ¬∃ fault, zero.validate .uint8 {} = .error fault := by
  intro digits padded zero o
  have hdigits : digits.value = -7 := by decide
  have hpadded : padded.rational? = some (-7) := congrArg some (by rw [hdigits]; norm_num)
  have hzero : zero.rational? = some 0 := congrArg some (by norm_num [Number.Decimal.units])
  have hother : ¬padded.IsMinusZero := by simp [padded, digits, IsMinusZero]
  obtain ⟨hnegative, hrejected⟩ := sign_is_arithmetic_iff hpadded
  obtain ⟨hnone, haccepted⟩ := sign_is_arithmetic_iff hzero
  refine ⟨hpadded, (hnegative.mpr hother).mpr (by norm_num), ?_, hzero, ?_, ?_⟩
  · exact ((hrejected _ o (.inr ⟨rfl, rfl⟩)).mpr hother).mpr (by norm_num)
  · exact Bool.eq_false_iff.mpr fun hsign => absurd ((hnone.mpr id).mp hsign) (lt_irrefl 0)
  · exact fun hfault => absurd (((haccepted _ {} (.inl rfl)).mpr id).mp hfault) (lt_irrefl 0)

/-- Zero behind a minus sign is not less than zero, but counts as negative. -/
theorem minus_zero_counts_as_negative :
    let v := bigInt ⟨true, ['0'], by decide, by decide⟩
    let o : TypeOptions := { unsignedBigInteger := true }
    ofBigText "-0" = .ok v ∧ v.rational? = some 0 ∧ ¬(v.isNegative = true ↔ (0 : ℚ) < 0) ∧
      ¬((∃ fault, v.validate .bigInteger o = .error fault) ↔ (0 : ℚ) < 0) := by
  intro v o
  have hzero : v.rational? = some 0 := congrArg some (by norm_num [BigInteger.value])
  refine ⟨rfl, hzero, fun h => ?_, fun h => ?_⟩
  · exact lt_irrefl (0 : ℚ) (h.mp rfl)
  · exact lt_irrefl (0 : ℚ) (h.mp ⟨_, rfl⟩)

end Value

end ColumnStore
