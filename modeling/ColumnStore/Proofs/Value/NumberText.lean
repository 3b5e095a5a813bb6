-- The numbers that the texts of constants denote. Whole and decimal numbers are
-- written out in full, so their texts denote them without any rounding.
import ColumnStore.Proofs.Number.FloatText
import ColumnStore.Proofs.Value.Signs
import Mathlib.Data.Nat.Digits.Defs

namespace ColumnStore

namespace Number

open Text (IsNumeral digitsValue)

/-! ## Numbers and their texts -/

/-- The number that a text says, before it is rounded to a double. -/
def FloatReading.rational? : FloatReading → Option ℚ
  | .finite negative mantissa scale =>
    some ((if negative then -(mantissa : ℚ) else mantissa) * 10 ^ scale)
  | _ => none

def Denotes (s : String) (x : ℚ) : Prop :=
  (readFloat? s.toList).bind FloatReading.rational? = some x

/-- Digits with a sign in front where the number is negative. -/
def signedText (negative : Bool) (cs : List Char) : List Char :=
  if negative then '-' :: cs else cs

variable {negative : Bool} {cs whole fraction : List Char}

theorem toLower_of_isDigit {c : Char} (h : c.isDigit = true) : c.toLower = c := by
  have hle : c.toNat ≤ 57 := (Char.isDigit_iff_toNat.mp h).2
  unfold Char.toLower
  split
  · rename_i hupper
    have hge : 65 ≤ c.toNat := UInt32.le_iff_toNat_le.mp hupper.1
    omega
  · rfl

/-- A text that begins with a digit is neither a word nor does it have a second sign. -/
theorem readFloat?_signedText {c : Char} (hc : c.isDigit = true) (rest : List Char) :
    readFloat? (signedText negative (c :: rest)) = readUnsigned negative (c :: rest) := by
  have hsign : splitSign (signedText negative (c :: rest)) = (negative, c :: rest) := by
    cases negative with
    | true => rfl
    | false =>
      obtain ⟨hplus, hminus⟩ := ne_sign_of_isDigit hc
      unfold signedText splitSign
      split
      · rename_i heq
        cases heq
        exact absurd rfl hminus
      · rename_i heq
        cases heq
        exact absurd rfl hplus
      · rfl
  have hword : String.ofList ((c :: rest).map Char.toLower) ∉ ["nan", "inf", "infinity"] := by
    have hfirst : ∀ word ∈ ["nan", "inf", "infinity"],
        word.toList.head? ∈ [some 'n', some 'i'] := by decide
    intro hmem
    have hlower := hfirst _ hmem
    rw [String.toList_ofList, List.map_cons, List.head?_cons, toLower_of_isDigit hc] at hlower
    simp only [List.mem_cons, List.not_mem_nil, or_false, Option.some.injEq] at hlower
    rcases hlower with rfl | rfl <;> cases hc
  simp only [List.mem_cons, List.not_mem_nil, or_false, not_or] at hword
  obtain ⟨hnan, hinf, hinfinity⟩ := hword
  unfold readFloat?
  rw [hsign]
  dsimp only
  rw [if_neg hnan, decide_eq_false hinf, decide_eq_false hinfinity]
  rfl

theorem span_isDigit (h : ∀ c ∈ cs, c.isDigit = true) :
    cs.takeWhile Char.isDigit = cs ∧ cs.dropWhile Char.isDigit = [] :=
  ⟨List.takeWhile_eq_self_iff.mpr h, List.dropWhile_eq_nil_iff.mpr h⟩

theorem readUnsigned_whole (h : IsNumeral cs) :
    readUnsigned negative cs = some (.finite negative (digitsValue cs) 0) := by
  obtain ⟨hfront, hbehind⟩ := span_isDigit h.2
  simp [readUnsigned, hfront, hbehind, h.1, readExponent]

theorem readUnsigned_pointed (hwhole : IsNumeral whole)
    (hfraction : ∀ c ∈ fraction, c.isDigit = true) :
    readUnsigned negative (whole ++ '.' :: fraction) =
      some (.finite negative (digitsValue (whole ++ fraction)) (-fraction.length)) := by
  have hpoint : ∀ c, ('.' :: fraction).head? = some c → c.isDigit = false := by
    rintro _ ⟨⟩
    rfl
  obtain ⟨hfront, hbehind⟩ := Text.span_append hwhole.2 hpoint
  obtain ⟨hfront', hbehind'⟩ := span_isDigit hfraction
  simp [readUnsigned, hfront, hbehind, hfront', hbehind', hwhole.1, readExponent]

/-- Zeros in front of digits add nothing to their value. -/
theorem digitsValue_zeros_append (k : Nat) (cs : List Char) :
    digitsValue (List.replicate k '0' ++ cs) = digitsValue cs := by
  induction k with
  | zero => rfl
  | succ k ih => exact ih

/-! ## Whole numbers -/

theorem readFloat?_whole {s : String} (h : IsNumeral cs) (hs : s.toList = signedText negative cs) :
    readFloat? s.toList = some (.finite negative (digitsValue cs) 0) := by
  obtain ⟨c, rest, rfl⟩ := List.exists_cons_of_ne_nil h.1
  rw [hs, readFloat?_signedText (h.2 c List.mem_cons_self), readUnsigned_whole h]

theorem denotes_toString_int (n : Int) : Denotes (toString n) n := by
  unfold Denotes
  obtain ⟨m, ⟨rfl, htext⟩ | ⟨rfl, htext⟩⟩ := Text.toList_toString_int n
  · rw [@readFloat?_whole false _ _ (Text.isNumeral_toDigits m) htext]
    simp [FloatReading.rational?, Text.digitsValue_toDigits]
  · rw [@readFloat?_whole true _ _ (Text.isNumeral_toDigits m) htext]
    simp [FloatReading.rational?, Text.digitsValue_toDigits]

/-! ## Decimal numbers -/

theorem readFloat?_pointed {s : String} (hwhole : IsNumeral whole)
    (hfraction : ∀ c ∈ fraction, c.isDigit = true)
    (hs : s.toList = signedText negative (whole ++ '.' :: fraction)) :
    readFloat? s.toList =
      some (.finite negative (digitsValue (whole ++ fraction)) (-fraction.length)) := by
  obtain ⟨c, rest, rfl⟩ := List.exists_cons_of_ne_nil hwhole.1
  rw [hs, List.cons_append, readFloat?_signedText (hwhole.2 c List.mem_cons_self),
    ← List.cons_append, readUnsigned_pointed hwhole hfraction]

namespace Decimal

/-- The coefficient's digits, with zeros in front so that one stands before the point. -/
def digits (d : Decimal) : List Char :=
  List.replicate (d.places + 1 - (Nat.toDigits 10 d.coefficient).length) '0' ++
    Nat.toDigits 10 d.coefficient

theorem places_lt_length_digits (d : Decimal) : d.places < d.digits.length := by
  rw [digits, List.length_append, List.length_replicate]
  omega

theorem isDigit_of_mem_digits {d : Decimal} {c : Char} (h : c ∈ d.digits) : c.isDigit = true := by
  rcases List.mem_append.mp h with h | h
  · rw [(List.mem_replicate.mp h).2]
    rfl
  · exact (Text.isNumeral_toDigits _).2 c h

theorem digitsValue_digits (d : Decimal) : digitsValue d.digits = d.coefficient := by
  rw [digits, digitsValue_zeros_append, Text.digitsValue_toDigits]

theorem units_eq (d : Decimal) :
    (d.units : ℚ) = if d.negative then -(d.coefficient : ℚ) else d.coefficient := by
  unfold units
  split <;> simp

/-- The text of a decimal number is read as its sign, its coefficient and its places. -/
theorem readFloat?_text (d : Decimal) :
    readFloat? d.text.toList = some (.finite d.negative d.coefficient (-d.places)) := by
  have hlength := d.places_lt_length_digits
  have hwhole : IsNumeral (d.digits.take (d.digits.length - d.places)) := by
    refine ⟨?_, fun c hc => isDigit_of_mem_digits (List.mem_of_mem_take hc)⟩
    rw [← List.length_pos_iff, List.length_take]
    omega
  by_cases hplaces : d.places = 0
  · have htext : d.text.toList = signedText d.negative d.digits := by
      rw [text, String.toList_ofList, signedText, if_pos hplaces, ← digits, hplaces,
        Nat.sub_zero, List.take_length]
    rw [hplaces, Nat.sub_zero, List.take_length] at hwhole
    rw [readFloat?_whole hwhole htext, digitsValue_digits, hplaces]
    rfl
  · have htext : d.text.toList = signedText d.negative
        (d.digits.take (d.digits.length - d.places) ++
          '.' :: d.digits.drop (d.digits.length - d.places)) := by
      rw [text, String.toList_ofList, signedText, if_neg hplaces, ← digits]
    have hfraction : (d.digits.drop (d.digits.length - d.places)).length = d.places := by
      rw [List.length_drop]
      omega
    rw [readFloat?_pointed hwhole (fun c hc => isDigit_of_mem_digits (List.mem_of_mem_drop hc))
      htext, List.take_append_drop, digitsValue_digits, hfraction]

theorem denotes_text (d : Decimal) : Denotes d.text (d.units / 10 ^ d.places) := by
  unfold Denotes
  rw [readFloat?_text, units_eq]
  simp [FloatReading.rational?, div_eq_mul_inv]

/-- The double of a decimal number's text is the one nearest to the number. -/
theorem float?_text (d : Decimal) :
    float? d.text = some (nearestFloat d.negative d.coefficient (Nat.pow 10 d.places)) := by
  have hdigits : (Nat.toDigits 10 d.coefficient).length ≤ 29 :=
    Nat.toDigits_length 10 _ 29 (by decide) (Nat.lt_trans d.coefficient_lt (by decide))
  have hplaces := d.places_le
  -- the size of the number is far from where its power is not built
  have hsmall : ¬ ((Nat.toDigits 10 d.coefficient).length : Int) + -d.places < -400 := by omega
  have hlarge : ¬ (400 : Int) < (Nat.toDigits 10 d.coefficient).length + -d.places := by omega
  rw [float?, readFloat?_text, Option.map_some, FloatReading.toFloat, floatOfScientific]
  by_cases hzero : d.coefficient = 0
  · simp [hzero, nearestFloat, nearestBits]
  · simp [hzero, hsmall, hlarge]

end Decimal

end Number

namespace Value

/-- A whole or a decimal number is written as it is. -/
theorem denotes_literal {v : Value} {x : ℚ} (hx : v.rational? = some x)
    (hbig : ∀ n, v ≠ bigInt n) : Number.Denotes v.literal x := by
  cases v with
  | int n =>
    cases hx
    exact Number.denotes_toString_int n.toInt
  | uint n =>
    cases hx
    exact_mod_cast Number.denotes_toString_int n.toNat
  | decimal d =>
    cases hx
    exact d.denotes_text
  | bigInt n => exact absurd rfl (hbig n)
  | _ => cases hx

end Value

end ColumnStore
