-- Which quotients of natural numbers have a nearest double of at most one. The
-- bits of a double are in the order of the doubles, so it is enough to follow
-- the exponent at which the quotient has a full mantissa, and the one rounding.
import ColumnStore.Proofs.Number.Doubles
import Mathlib.Tactic.Ring

namespace ColumnStore.Number

/-! ## Rounded quotients -/

variable {a b k : Nat} {e : Int}

theorem div_le_roundQuotient {tie : Tie} : a / b ≤ roundQuotient tie a b := by
  unfold roundQuotient
  cases tie <;> dsimp only <;> split <;> (try split) <;> omega

theorem roundQuotient_le {tie : Tie} : roundQuotient tie a b ≤ a / b + 1 := by
  unfold roundQuotient
  cases tie <;> dsimp only <;> split <;> (try split) <;> omega

/-- A quotient is rounded to an even number and the numbers below it as far as the middle. -/
theorem roundQuotient_le_even_iff (hb : 0 < b) (hk : k % 2 = 0) :
    roundQuotient .even a b ≤ k ↔ 2 * a ≤ (2 * k + 1) * b := by
  have ha : b * (a / b) + a % b = a := Nat.div_add_mod a b
  have hr : a % b < b := Nat.mod_lt a hb
  have hmiddle : (2 * k + 1) * b = 2 * (b * k) + b := by ring
  have hround : roundQuotient .even a b ≤ k ↔ a / b < k ∨ a / b = k ∧ 2 * (a % b) ≤ b := by
    unfold roundQuotient
    dsimp only
    split
    · omega
    · split <;> omega
  rw [hround, hmiddle]
  rcases Nat.lt_trichotomy (a / b) k with hlt | heq | hgt
  · have := Nat.mul_le_mul_left b (Nat.succ_le_of_lt hlt)
    rw [Nat.mul_succ] at this
    omega
  · rw [heq] at ha
    omega
  · have := Nat.mul_le_mul_left b (Nat.succ_le_of_lt hgt)
    rw [Nat.mul_succ] at this
    omega

/-! ## Full mantissas -/

/-- At this exponent the quotient has a mantissa of 53 bits. -/
structure IsFull (a b : Nat) (e : Int) : Prop where
  lower : leadingBit * (b * 2 ^ e.toNat) ≤ a * 2 ^ (-e).toNat
  upper : a * 2 ^ (-e).toNat < 2 * leadingBit * (b * 2 ^ e.toNat)

theorem lower_of_log2 (ha : a ≠ 0) (h : (a.log2 : Int) - b.log2 = e + 53) :
    leadingBit * (b * 2 ^ e.toNat) ≤ a * 2 ^ (-e).toNat := by
  have hb : b ≤ 2 ^ (b.log2 + 1) := Nat.lt_log2_self.le
  calc leadingBit * (b * 2 ^ e.toNat) ≤ 2 ^ 52 * (2 ^ (b.log2 + 1) * 2 ^ e.toNat) :=
        Nat.mul_le_mul_left _ (Nat.mul_le_mul_right _ hb)
    _ = 2 ^ a.log2 * 2 ^ (-e).toNat := by
        rw [← Nat.pow_add, ← Nat.pow_add, ← Nat.pow_add]
        congr 1
        omega
    _ ≤ a * 2 ^ (-e).toNat := Nat.mul_le_mul_right _ (Nat.log2_self_le ha)

theorem upper_of_log2 (hb : b ≠ 0) (h : (a.log2 : Int) - b.log2 = e + 52) :
    a * 2 ^ (-e).toNat < 2 * leadingBit * (b * 2 ^ e.toNat) := by
  have ha : a < 2 ^ (a.log2 + 1) := Nat.lt_log2_self
  calc a * 2 ^ (-e).toNat < 2 ^ (a.log2 + 1) * 2 ^ (-e).toNat :=
        Nat.mul_lt_mul_of_pos_right ha (Nat.two_pow_pos _)
    _ = 2 ^ 53 * (2 ^ b.log2 * 2 ^ e.toNat) := by
        rw [← Nat.pow_add, ← Nat.pow_add, ← Nat.pow_add]
        congr 1
        omega
    _ ≤ 2 * leadingBit * (b * 2 ^ e.toNat) :=
        Nat.mul_le_mul_left _ (Nat.mul_le_mul_right _ (Nat.log2_self_le hb))

/-- A quotient that is too small for a full mantissa is small enough for the exponent below. -/
theorem upper_of_lt (h : a * 2 ^ (-e).toNat < b * 2 ^ e.toNat * leadingBit) :
    a * 2 ^ (-(e - 1)).toNat < 2 * leadingBit * (b * 2 ^ (e - 1).toNat) := by
  rcases Int.lt_or_le 0 e with he | he
  · have hfront : (-(e - 1)).toNat = (-e).toNat := by omega
    have hpow : e.toNat = (e - 1).toNat + 1 := by omega
    rw [hpow, Nat.pow_succ] at h
    rw [hfront]
    calc a * 2 ^ (-e).toNat < b * (2 ^ (e - 1).toNat * 2) * leadingBit := h
      _ = 2 * leadingBit * (b * 2 ^ (e - 1).toNat) := by ring
  · have hpow : (-(e - 1)).toNat = (-e).toNat + 1 := by omega
    have hbehind : (e - 1).toNat = e.toNat := by omega
    rw [hpow, hbehind, Nat.pow_succ]
    calc a * (2 ^ (-e).toNat * 2) = 2 * (a * 2 ^ (-e).toNat) := by ring
      _ < 2 * (b * 2 ^ e.toNat * leadingBit) := Nat.mul_lt_mul_of_pos_left h Nat.two_pos
      _ = 2 * leadingBit * (b * 2 ^ e.toNat) := by ring

/-- The exponent for a full mantissa. The logarithms tell it but for one. -/
def fullExponent (a b : Nat) : Int :=
  let guess : Int := (a.log2 : Int) - (b.log2 : Int) - 52
  if a * 2 ^ (-guess).toNat < b * 2 ^ guess.toNat * leadingBit then guess - 1 else guess

theorem isFull_fullExponent (ha : a ≠ 0) (hb : b ≠ 0) : IsFull a b (fullExponent a b) := by
  unfold fullExponent
  dsimp only
  split
  · rename_i hbelow
    exact ⟨lower_of_log2 ha (by omega), upper_of_lt hbelow⟩
  · rename_i hbelow
    refine ⟨?_, upper_of_log2 hb (by omega)⟩
    rw [Nat.mul_comm]
    exact Nat.le_of_not_lt hbelow

/-! ## Nearest doubles -/

/-- The exponent that the nearest double is stored with. -/
def storedExponent (a b : Nat) : Int := max (-1074) (fullExponent a b)

/-- The rounded mantissa at an exponent. -/
def mantissaAt (a b : Nat) (e : Int) : Nat :=
  roundQuotient .even (a * 2 ^ (-e).toNat) (b * 2 ^ e.toNat)

/-- The bits of a mantissa at an exponent. -/
def bitsAt (m : Nat) (e : Int) : Nat :=
  if m < leadingBit then m else (e + 1075).toNat * leadingBit + (m - leadingBit)

theorem nearestBits_eq (ha : a ≠ 0) : nearestBits a b =
    min (bitsAt (mantissaAt a b (storedExponent a b)) (storedExponent a b))
      (2047 * leadingBit) := by
  unfold nearestBits
  rw [if_neg ha]
  unfold bitsAt mantissaAt storedExponent fullExponent
  simp only [decide_eq_true_eq, Nat.pow_eq]

theorem nearestBits_le : nearestBits a b ≤ 2047 * leadingBit := by
  by_cases ha : a = 0
  · rw [nearestBits, if_pos ha]
    exact Nat.zero_le _
  · rw [nearestBits_eq ha]
    exact Nat.min_le_right _ _

theorem leadingBit_le_mantissaAt (hb : 0 < b) (h : IsFull a b e) :
    leadingBit ≤ mantissaAt a b e := by
  refine Nat.le_trans ?_ div_le_roundQuotient
  exact (Nat.le_div_iff_mul_le (Nat.mul_pos hb (Nat.two_pow_pos _))).mpr h.lower

/-- What is not too small for the smallest double is not rounded away. -/
theorem nearestBits_pos (ha : a ≠ 0) (hb : 0 < b) (h : b ≤ a * 2 ^ k) (hk : k ≤ 1074) :
    0 < nearestBits a b := by
  have hfull := isFull_fullExponent ha (Nat.ne_of_gt hb)
  have hmantissa : 0 < mantissaAt a b (storedExponent a b) := by
    unfold storedExponent
    rcases Int.le_total (fullExponent a b) (-1074) with he | he
    · rw [Int.max_eq_left he]
      have hbehind : (-1074 : Int).toNat = 0 := rfl
      have hfront : k ≤ (-(-1074 : Int)).toNat := hk
      refine Nat.lt_of_lt_of_le (Nat.div_pos ?_ ?_) div_le_roundQuotient
      · rw [hbehind, Nat.pow_zero, Nat.mul_one]
        exact Nat.le_trans h (Nat.mul_le_mul_left a (Nat.pow_le_pow_right Nat.two_pos hfront))
      · rwa [hbehind, Nat.pow_zero, Nat.mul_one]
    · rw [Int.max_eq_right he]
      exact Nat.lt_of_lt_of_le leadingBit_pos (leadingBit_le_mantissaAt hb hfull)
  have he : -1074 ≤ storedExponent a b := Int.le_max_left _ _
  have hbits : 0 < bitsAt (mantissaAt a b (storedExponent a b)) (storedExponent a b) := by
    unfold bitsAt
    split
    · exact hmantissa
    · have hfield : 0 < (storedExponent a b + 1075).toNat := by omega
      have := Nat.mul_pos hfield leadingBit_pos
      omega
  rw [nearestBits_eq ha]
  exact Nat.lt_min.mpr ⟨hbits, by decide⟩

/-! ## Quotients about one -/

/-- At an exponent below zero that is large enough, a mantissa has at most 53 bits. It is rounded
up to one more only for a power of two. -/
theorem mantissaAt_le {e' : Int} (h : IsFull a b e) (hle : e ≤ e') (hneg : e' ≤ 0) :
    mantissaAt a b e' ≤ 2 * leadingBit := by
  have hbehind : e.toNat = 0 := by omega
  have hbehind' : e'.toNat = 0 := by omega
  have hpow : 2 ^ (-e').toNat ≤ 2 ^ (-e).toNat := Nat.pow_le_pow_right Nat.two_pos (by omega)
  have hupper := h.upper
  rw [hbehind] at hupper
  unfold mantissaAt
  rw [hbehind']
  refine Nat.le_trans roundQuotient_le (Nat.div_lt_of_lt_mul ?_)
  rw [Nat.mul_comm _ (2 * leadingBit)]
  exact Nat.lt_of_le_of_lt (Nat.mul_le_mul_left a hpow) hupper

theorem bitsAt_le_of_small {m : Nat} (he : e ≤ -53) (hm : m ≤ 2 * leadingBit) :
    bitsAt m e ≤ 1023 * leadingBit := by
  unfold bitsAt
  rw [leadingBit_eq] at *
  split
  · omega
  · have hfield : (e + 1075).toNat ≤ 1022 := by omega
    omega

theorem lt_bitsAt_of_large {m : Nat} (he : -51 ≤ e) (hm : leadingBit ≤ m) :
    1023 * leadingBit < bitsAt m e := by
  unfold bitsAt
  rw [if_neg (Nat.not_lt.mpr hm)]
  rw [leadingBit_eq] at *
  have hfield : 1024 ≤ (e + 1075).toNat := by omega
  omega

theorem lt_of_isFull (he : e ≤ -53) (h : IsFull a b e) : a < b := by
  have hbehind : e.toNat = 0 := by omega
  have hpow : 2 ^ 53 ≤ 2 ^ (-e).toNat := Nat.pow_le_pow_right Nat.two_pos (by omega)
  have hupper := h.upper
  rw [hbehind, Nat.pow_zero, Nat.mul_one] at hupper
  have hlt := Nat.lt_of_le_of_lt (Nat.mul_le_mul_left a hpow) hupper
  rw [leadingBit_eq] at hlt
  omega

theorem double_le_of_isFull (he : -51 ≤ e) (h : IsFull a b e) : 2 * b ≤ a := by
  have hfront : a * 2 ^ (-e).toNat ≤ a * 2 ^ 51 :=
    Nat.mul_le_mul_left a (Nat.pow_le_pow_right Nat.two_pos (by omega))
  have hbehind : b ≤ b * 2 ^ e.toNat := Nat.le_mul_of_pos_right b (Nat.two_pow_pos _)
  have hlower := h.lower
  rw [leadingBit_eq] at hlower
  omega

/-- The nearest double is at most one exactly where the quotient is at most halfway from one to
the double behind it. -/
theorem nearestBits_le_one_iff (hb : 0 < b) :
    nearestBits a b ≤ 1023 * leadingBit ↔ a * 2 ^ 53 ≤ b * (2 ^ 53 + 1) := by
  by_cases ha : a = 0
  · rw [nearestBits, if_pos ha, ha]
    simp
  have hfull := isFull_fullExponent ha (Nat.ne_of_gt hb)
  rw [nearestBits_eq ha]
  have hlimit : ¬2047 * leadingBit ≤ 1023 * leadingBit := by decide
  rw [min_le_iff, or_iff_left hlimit]
  unfold storedExponent
  rcases Int.lt_trichotomy (fullExponent a b) (-52) with he | he | he
  · have hlt := lt_of_isFull (by omega) hfull
    have hm : mantissaAt a b (max (-1074) (fullExponent a b)) ≤ 2 * leadingBit :=
      mantissaAt_le hfull (by omega) (by omega)
    exact iff_of_true (bitsAt_le_of_small (by omega) hm) (by omega)
  · rw [he] at hfull ⊢
    have hm := leadingBit_le_mantissaAt hb hfull
    have hbits : bitsAt (mantissaAt a b (-52)) (-52) ≤ 1023 * leadingBit ↔
        mantissaAt a b (-52) ≤ leadingBit := by
      unfold bitsAt
      rw [if_neg (Nat.not_lt.mpr hm)]
      have hfield : ((-52 : Int) + 1075).toNat = 1023 := rfl
      rw [hfield]
      omega
    have hexponent : max (-1074 : Int) (-52) = -52 := rfl
    rw [hexponent, hbits]
    unfold mantissaAt
    rw [roundQuotient_le_even_iff (Nat.mul_pos hb (Nat.two_pow_pos _)) (by decide)]
    have hfront : (-(-52 : Int)).toNat = 52 := rfl
    have hbehind : (-52 : Int).toNat = 0 := rfl
    rw [hfront, hbehind, leadingBit_eq]
    omega
  · have hexponent : max (-1074) (fullExponent a b) = fullExponent a b := by omega
    have hle := double_le_of_isFull (by omega) hfull
    have hm := leadingBit_le_mantissaAt hb hfull
    rw [hexponent]
    refine iff_of_false (Nat.not_le.mpr (lt_bitsAt_of_large (by omega) hm)) ?_
    omega

/-- The nearest double is taken for a number above zero and up to one. -/
theorem nearestFloat_between_iff {negative : Bool} (hb : 0 < b) (hlarge : b ≤ 2 ^ k)
    (hk : k ≤ 1074) :
    nearestFloat negative a b > 0.0 ∧ nearestFloat negative a b ≤ 1.0 ↔
      negative = false ∧ a ≠ 0 ∧ a * 2 ^ 53 ≤ b * (2 ^ 53 + 1) := by
  have hstands : StandsFor (signOf negative) (nearestBits a b)
      (nearestFloat negative a b).toModel.unpack := standsFor_ofBits negative nearestBits_le
  cases negative with
  | true => simp [not_pos_of_standsFor hstands]
  | false =>
    have hpos : 0 < nearestBits a b ↔ a ≠ 0 := by
      constructor
      · rintro h rfl
        exact Nat.lt_irrefl 0 h
      · intro ha
        have h : b ≤ a * 2 ^ k :=
          Nat.le_trans hlarge (Nat.le_mul_of_pos_left _ (Nat.pos_of_ne_zero ha))
        exact nearestBits_pos ha hb h hk
    rw [pos_iff_of_standsFor hstands, le_one_iff_of_standsFor hstands, hpos,
      nearestBits_le_one_iff hb, and_iff_right rfl]

end ColumnStore.Number
