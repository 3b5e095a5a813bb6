-- What the bits of a double stand for, and how doubles compare with zero and
-- with one. Without their sign the bits are in the order of the doubles, so a
-- comparison of doubles is one of whole numbers.
import ColumnStore.Number.Binary64
import Mathlib

namespace ColumnStore.Number

open Float.Model (Format UnpackedFloat)
open Float.Model.UnpackedFloat

theorem leadingBit_eq : leadingBit = 4503599627370496 := rfl

theorem leadingBit_pos : 0 < leadingBit := by decide

/-! ## Fields -/

variable {b : BitVec Format.binary64.numBits} {negative : Bool} {n : Nat}

theorem toNat_unpackMantissa : (unpackMantissa b).toNat = b.toNat % leadingBit := by
  rw [unpackMantissa_def, BitVec.extractLsb'_toNat, Nat.shiftRight_zero]
  rfl

theorem toNat_unpackExponent : (unpackExponent b).toNat = b.toNat / leadingBit % 2048 := by
  rw [unpackExponent_def, BitVec.extractLsb'_toNat, Nat.shiftRight_eq_div_pow]
  rfl

theorem toNat_unpackSign : (unpackSign b).toNat = b.toNat / 9223372036854775808 % 2 := by
  rw [unpackSign_def, BitVec.extractLsb'_toNat, Nat.shiftRight_eq_div_pow]
  rfl

/-- The leading bit stands before the bits that a full mantissa is stored with. -/
theorem toNat_leadingBit_append (m : BitVec 52) : (1#1 ++ m).toNat = leadingBit + m.toNat := by
  have hm : m.toNat < 2 ^ 52 := m.isLt
  rw [BitVec.toNat_append, ← Nat.shiftLeft_add_eq_or_of_lt hm]
  rfl

/-- Bits with a sign in front. -/
def signedBits (negative : Bool) (n : Nat) : Nat := n + if negative then Nat.pow 2 63 else 0

def signOf (negative : Bool) : UnpackedFloat.Sign := if negative then .negative else .positive

/-- The fields of the bits with the sign in front. -/
structure HasFields (b : BitVec Format.binary64.numBits) (negative : Bool) (n : Nat) : Prop where
  sign : Sign.ofBitVec (unpackSign b) = signOf negative
  exponent : (unpackExponent b).toNat = n / leadingBit
  mantissa : (unpackMantissa b).toNat = n % leadingBit

theorem hasFields_of_toNat (h : n ≤ 2047 * leadingBit) (hb : b.toNat = signedBits negative n) :
    HasFields b negative n := by
  have hhigh : Nat.pow 2 63 = 9223372036854775808 := rfl
  rw [leadingBit_eq] at h
  unfold signedBits at hb
  cases negative with
  | false =>
    rw [if_neg (by decide)] at hb
    have hclear : unpackSign b = 0#1 := by
      rw [← BitVec.toNat_inj, toNat_unpackSign, hb]
      show _ = 0
      omega
    refine ⟨by rw [hclear]; rfl, ?_, ?_⟩
    · rw [toNat_unpackExponent, leadingBit_eq]
      omega
    · rw [toNat_unpackMantissa, hb]
      rfl
  | true =>
    rw [if_pos rfl, hhigh] at hb
    have hset : unpackSign b = 1#1 := by
      rw [← BitVec.toNat_inj, toNat_unpackSign, hb]
      show _ = 1
      omega
    refine ⟨by rw [hset]; rfl, ?_, ?_⟩
    · rw [toNat_unpackExponent, leadingBit_eq]
      omega
    · rw [toNat_unpackMantissa, leadingBit_eq]
      omega

namespace HasFields

variable (hb : HasFields b negative n)

include hb

theorem exponent_eq_ones_iff : unpackExponent b = -1#_ ↔ n / leadingBit = 2047 := by
  rw [← BitVec.toNat_inj, hb.exponent]
  rfl

theorem exponent_eq_zero_iff : unpackExponent b = 0#_ ↔ n / leadingBit = 0 := by
  rw [← BitVec.toNat_inj, hb.exponent]
  rfl

theorem mantissa_eq_zero_iff : unpackMantissa b = 0#_ ↔ n % leadingBit = 0 := by
  rw [← BitVec.toNat_inj, hb.mantissa]
  rfl

end HasFields

/-! ## What bits stand for -/

/-- The bits without their sign and what they stand for, up to the infinite double. -/
inductive StandsFor (s : UnpackedFloat.Sign) : Nat → UnpackedFloat → Prop
  | zero : StandsFor s 0 (.zero s)
  | subnormal {m : Nat} (hm : 0 < m) (h : m < leadingBit) :
    StandsFor s m (.finite s m (-1074) hm)
  | normal {field fraction : Nat} (hpos : 0 < field) (hfield : field < 2047)
      (hfraction : fraction < leadingBit) (hm : 0 < leadingBit + fraction) :
    StandsFor s (field * leadingBit + fraction)
      (.finite s (leadingBit + fraction) ((field : Int) - 1075) hm)
  | infinite : StandsFor s (2047 * leadingBit) (.infinity s)

theorem standsFor_unpack (h : n ≤ 2047 * leadingBit) (hb : HasFields b negative n) :
    StandsFor (signOf negative) n (unpack Format.binary64 b) := by
  have hn : n / leadingBit * leadingBit + n % leadingBit = n := Nat.div_add_mod' n leadingBit
  fun_cases unpack with
  | case1 m e sign s he hm =>
    rw [hb.exponent_eq_ones_iff.mp he, hb.mantissa_eq_zero_iff.mp hm] at hn
    subst hn
    exact hb.sign ▸ .infinite
  | case2 m e he hm =>
    -- a full exponent before other digits is beyond the infinite double
    rw [hb.exponent_eq_ones_iff.mp he] at hn
    have := mt hb.mantissa_eq_zero_iff.mpr hm
    omega
  | case3 m e sign s _ he hm =>
    rw [hb.exponent_eq_zero_iff.mp he, hb.mantissa_eq_zero_iff.mp hm, Nat.zero_mul] at hn
    subst hn
    exact hb.sign ▸ .zero
  | case4 m e exponent sign s _ he hm =>
    have hzero := hb.exponent_eq_zero_iff.mp he
    rw [hzero, Nat.zero_mul, Nat.zero_add] at hn
    have hm : m.toNat = n := hb.mantissa.trans hn
    have hexponent : exponent + 1 = -1074 := by
      simp only [exponent, e, he]
      rfl
    have hs : s = signOf negative := hb.sign
    have hlt : n < leadingBit := (Nat.div_eq_zero_iff_lt leadingBit_pos).mp hzero
    simp only [hm, hexponent, hs]
    exact .subnormal _ hlt
  | case5 m e exponent sign s hone he =>
    have hle : n / leadingBit ≤ 2047 := Nat.div_le_of_le_mul (by rwa [Nat.mul_comm])
    have hpos : 0 < n / leadingBit := Nat.pos_of_ne_zero (mt hb.exponent_eq_zero_iff.mpr he)
    have hlt : n / leadingBit < 2047 :=
      Nat.lt_of_le_of_ne hle (mt hb.exponent_eq_ones_iff.mpr hone)
    have hnormal := StandsFor.normal (s := signOf negative) hpos hlt
      (Nat.mod_lt n leadingBit_pos) (Nat.add_pos_left leadingBit_pos _)
    rw [hn] at hnormal
    have hexponent : exponent = ((n / leadingBit : Nat) : Int) - 1075 := by
      simp only [exponent, e, hb.exponent]
      rfl
    have hs : s = signOf negative := hb.sign
    have hm : (1#1 ++ m).toNat = leadingBit + n % leadingBit := by
      rw [toNat_leadingBit_append, hb.mantissa]
    simpa only [hexponent, hs, hm] using hnormal

/-- The bits of a double, apart from those that are no number, are kept as they are. -/
theorem standsFor_ofBits (negative : Bool) (h : n ≤ 2047 * leadingBit) :
    StandsFor (signOf negative) n
      (Float.ofBits (UInt64.ofNat (signedBits negative n))).toModel.unpack := by
  have hn : n / leadingBit * leadingBit + n % leadingBit = n := Nat.div_add_mod' n leadingBit
  let b : BitVec Format.binary64.numBits := BitVec.ofNat 64 (signedBits negative n)
  have hb : HasFields b negative n := by
    apply hasFields_of_toNat h
    apply Nat.mod_eq_of_lt
    have hhigh : Nat.pow 2 63 = 9223372036854775808 := rfl
    show signedBits negative n < 18446744073709551616
    rw [leadingBit_eq] at h
    unfold signedBits
    cases negative <;> simp only [Bool.false_eq_true, if_false, if_true, hhigh] <;> omega
  have hnumber : isNaNBits b = false := by
    unfold isNaNBits
    rw [decide_eq_false_iff_not, hb.exponent_eq_ones_iff, ne_eq, hb.mantissa_eq_zero_iff]
    rintro ⟨hones, hfraction⟩
    rw [hones] at hn
    omega
  have hstored : pack Format.binary64 (unpack Format.binary64 b) = b := by
    rw [pack_unpack, hnumber]
    rfl
  show StandsFor _ n (unpack Format.binary64 (pack Format.binary64 (unpack Format.binary64 b)))
  rw [hstored]
  exact standsFor_unpack h hb

/-! ## Comparisons -/

theorem float_lt_iff {f g : Float} :
    f < g ↔ UnpackedFloat.lt f.toModel.unpack g.toModel.unpack = true := by
  show decide (f.toModel < g.toModel) = true ↔ _
  rw [decide_eq_true_iff]
  rfl

theorem float_le_iff {f g : Float} :
    f ≤ g ↔ UnpackedFloat.le f.toModel.unpack g.toModel.unpack = true := by
  show decide (f.toModel ≤ g.toModel) = true ↔ _
  rw [decide_eq_true_iff]
  rfl

variable {f : Float}

theorem not_pos_of_standsFor (h : StandsFor .negative n f.toModel.unpack) : ¬f > 0.0 := by
  have hzero : (0.0 : Float).toModel.unpack = .zero .positive := rfl
  rw [gt_iff_lt, float_lt_iff, hzero]
  generalize f.toModel.unpack = u at h
  cases h <;> simp [UnpackedFloat.lt, UnpackedFloat.compare]

theorem pos_iff_of_standsFor (h : StandsFor .positive n f.toModel.unpack) : f > 0.0 ↔ 0 < n := by
  have hzero : (0.0 : Float).toModel.unpack = .zero .positive := rfl
  rw [gt_iff_lt, float_lt_iff, hzero]
  generalize f.toModel.unpack = u at h
  cases h with
  | zero => simp [UnpackedFloat.lt, UnpackedFloat.compare]
  | subnormal hm => simp [UnpackedFloat.lt, UnpackedFloat.compare, hm]
  | normal hfield => simp [UnpackedFloat.lt, UnpackedFloat.compare, hfield, leadingBit_pos]
  | infinite => simp [UnpackedFloat.lt, UnpackedFloat.compare, leadingBit_pos]

theorem le_one_iff_of_standsFor (h : StandsFor .positive n f.toModel.unpack) :
    f ≤ 1.0 ↔ n ≤ 1023 * leadingBit := by
  have hone : (1.0 : Float).toModel.unpack =
      .finite .positive leadingBit (-52) leadingBit_pos := rfl
  rw [float_le_iff, hone]
  generalize f.toModel.unpack = u at h
  cases h with
  | zero => simp [UnpackedFloat.le, UnpackedFloat.compare]
  | subnormal hm hlt =>
    refine iff_of_true ?_ ?_
    · simp [UnpackedFloat.le, UnpackedFloat.compare, Ordering.isLE_then_iff_or]
      decide
    · omega
  | @normal field fraction hfield _ hfraction =>
    have hsize : UnpackedFloat.le (.finite .positive (leadingBit + fraction) ((field : Int) - 1075)
          (Nat.add_pos_left leadingBit_pos _)) (.finite .positive leadingBit (-52) leadingBit_pos) =
        true ↔ (field : Int) - 1075 < -52 ∨ (field : Int) - 1075 = -52 ∧ fraction = 0 := by
      simp [UnpackedFloat.le, UnpackedFloat.compare, Ordering.isLE_then_iff_or,
        Int.compare_eq_lt, Nat.isLE_compare]
    rw [hsize]
    rw [leadingBit_eq] at hfraction ⊢
    omega
  | infinite =>
    refine iff_of_false ?_ (by decide)
    simp [UnpackedFloat.le, UnpackedFloat.compare]

end ColumnStore.Number
