-- Whole numbers as text: a word is read exactly where an optional sign and
-- digits spell it, and what is written with its digits is read back as it.
import ColumnStore.Proofs.Text.Blank
import ColumnStore.Proofs.Text.Names
import ColumnStore.Text.Integer

namespace ColumnStore.Text

/-! ## Digits -/

theorem digit?_digitChar {n : Nat} (h : n < 10) : digit? n.digitChar = some n := by
  have hn : n.digitChar.toNat = 48 + n := Nat.toNat_digitChar_of_lt_ten h
  have hd : n.digitChar.isDigit = true := by
    simp [h]
  rw [digit?, if_pos hd, hn]
  simp

theorem readDigits_append (limit : Nat) (beyond : IntegerFault) (n : Nat) (xs ys : List Char) :
    readDigits limit beyond n (xs ++ ys) =
      (readDigits limit beyond n xs).bind fun m => readDigits limit beyond m ys := by
  induction xs generalizing n with
  | nil => rfl
  | cons x xs ih =>
    simp only [List.cons_append, readDigits]
    split
    · rfl
    · split
      · rfl
      · exact ih _

/-- The digits of a number are read as that number, where it is within the limit. -/
theorem readDigits_toDigits (limit : Nat) (beyond : IntegerFault) {n : Nat} (h : n ≤ limit) :
    readDigits limit beyond 0 (Nat.toDigits 10 n) = .ok n := by
  induction n using Nat.strongRecOn with
  | ind n ih =>
    rcases Nat.lt_or_ge n 10 with hlt | hge
    · rw [Nat.toDigits_of_lt_base hlt]
      simp only [readDigits, digit?_digitChar hlt]
      rw [if_neg (by omega)]
      simp
    · have hrest : readDigits limit beyond 0 (Nat.toDigits 10 (n / 10)) = .ok (n / 10) :=
        ih (n / 10) (by omega) (by omega)
      have hdigit : n % 10 < 10 := Nat.mod_lt _ (by decide)
      rw [Nat.toDigits_of_base_le (by decide) hge, readDigits_append, hrest]
      simp only [Except.bind, readDigits, digit?_digitChar hdigit]
      rw [if_neg (by omega)]
      congr
      omega

/-- At least one digit. -/
def IsNumeral (cs : List Char) : Prop := cs ≠ [] ∧ ∀ c ∈ cs, c.isDigit = true

theorem isNumeral_toDigits (n : Nat) : IsNumeral (Nat.toDigits 10 n) :=
  ⟨Nat.toDigits_ne_nil, fun _ => Nat.isDigit_of_mem_toDigits (by decide) (by decide)⟩

/-! ## Texts of whole numbers -/

/-- A whole number is written in digits, perhaps behind a sign. -/
theorem toList_toString_int (n : Int) : ∃ m : Nat,
    n = m ∧ (toString n).toList = Nat.toDigits 10 m ∨
      n = -m ∧ (toString n).toList = '-' :: Nat.toDigits 10 m := by
  have hdigits : ∀ m : Nat, (toString m).toList = Nat.toDigits 10 m := by simp
  cases n with
  | ofNat m => exact ⟨m, Or.inl ⟨rfl, hdigits m⟩⟩
  | negSucc m =>
    refine ⟨m + 1, Or.inr ⟨rfl, ?_⟩⟩
    rw [← hdigits]
    exact String.toList_append

theorem mem_toString_int {n : Int} {c : Char} (h : c ∈ (toString n).toList) :
    c = '-' ∨ c.isDigit = true := by
  obtain ⟨m, ⟨_, hm⟩ | ⟨_, hm⟩⟩ := toList_toString_int n
  · rw [hm] at h
    exact Or.inr ((isNumeral_toDigits m).2 c h)
  · rw [hm] at h
    exact (List.mem_cons.mp h).imp_right ((isNumeral_toDigits m).2 c)

theorem toList_toString_int_ne_nil (n : Int) : (toString n).toList ≠ [] := by
  obtain ⟨m, ⟨_, hm⟩ | ⟨_, hm⟩⟩ := toList_toString_int n
  · rw [hm]
    exact Nat.toDigits_ne_nil
  · rw [hm]
    exact List.cons_ne_nil _ _

theorem trim_toString_int (n : Int) : trim (toString n).toList = (toString n).toList := by
  apply trim_eq_self_of_unbroken
  intro c hc
  rcases mem_toString_int hc with rfl | hdigit
  · decide
  · exact isBlank_of_isNameChar (by simp [isNameChar, Char.isAlphanum, hdigit])

/-! ## Words -/

/-- Digits behind a number make it no smaller. -/
theorem le_digits_foldl (n : Nat) (cs : List Char) :
    n ≤ cs.foldl (fun n c => 10 * n + (c.toNat - '0'.toNat)) n := by
  induction cs generalizing n with
  | nil => exact Nat.le_refl n
  | cons c cs ih =>
    have := ih (10 * n + (c.toNat - '0'.toNat))
    rw [List.foldl_cons]
    omega

theorem digit_eq_zero_iff {c : Char} (h : c.isDigit = true) :
    c.toNat - '0'.toNat = 0 ↔ c = '0' := by
  have hge : '0'.toNat ≤ c.toNat := (Char.isDigit_iff_toNat.mp h).1
  rw [← Char.toNat_inj]
  omega

/-- Digits come to zero only where each of them is zero. -/
theorem digits_foldl_eq_zero_iff {cs : List Char} (h : ∀ c ∈ cs, c.isDigit = true) {n : Nat} :
    cs.foldl (fun n c => 10 * n + (c.toNat - '0'.toNat)) n = 0 ↔ n = 0 ∧ ∀ c ∈ cs, c = '0' := by
  induction cs generalizing n with
  | nil => simp
  | cons c cs ih =>
    obtain ⟨hc, hcs⟩ := List.forall_mem_cons.mp h
    rw [List.foldl_cons, ih hcs, Nat.add_eq_zero_iff, digit_eq_zero_iff hc, List.forall_mem_cons,
      and_assoc, Nat.mul_eq_zero, or_iff_right (by decide)]

/-- Digits are read exactly where their number is within the limit. -/
theorem readDigits_eq_ok_iff {limit : Nat} {beyond : IntegerFault} {n m : Nat} {cs : List Char}
    (hn : n ≤ limit) : readDigits limit beyond n cs = .ok m ↔
      (∀ c ∈ cs, c.isDigit = true) ∧
        m = cs.foldl (fun n c => 10 * n + (c.toNat - '0'.toNat)) n ∧ m ≤ limit := by
  induction cs generalizing n with
  | nil =>
    simp only [readDigits, Except.ok.injEq, List.foldl_nil]
    constructor
    · rintro rfl
      exact ⟨nofun, rfl, hn⟩
    · rintro ⟨_, rfl, _⟩
      rfl
  | cons c cs ih =>
    rw [readDigits, List.foldl_cons, List.forall_mem_cons]
    by_cases hc : c.isDigit = true
    · rw [digit?, if_pos hc]
      dsimp only
      by_cases hlarge : limit < 10 * n + (c.toNat - '0'.toNat)
      · rw [if_pos hlarge]
        constructor
        · intro h
          cases h
        · rintro ⟨_, rfl, hm⟩
          have := le_digits_foldl (10 * n + (c.toNat - '0'.toNat)) cs
          omega
      · rw [if_neg hlarge, ih (Nat.le_of_not_lt hlarge)]
        simp only [hc, true_and]
    · rw [digit?, if_neg hc]
      constructor
      · intro h
        cases h
      · rintro ⟨⟨hdigit, _⟩, _⟩
        exact absurd hdigit hc

/-- The text of a signed word: a numeral, perhaps behind a sign, for a number that is the word. -/
inductive SpellsInt64 (i : Int64) : List Char → Prop
  | unsigned {cs : List Char} (h : IsNumeral cs) (hi : i.toInt = digitsValue cs) : SpellsInt64 i cs
  | plus {cs : List Char} (h : IsNumeral cs) (hi : i.toInt = digitsValue cs) :
    SpellsInt64 i ('+' :: cs)
  | minus {cs : List Char} (h : IsNumeral cs) (hi : i.toInt = -digitsValue cs) :
    SpellsInt64 i ('-' :: cs)

theorem map_readDigits_eq_ok_iff {limit : Nat} {beyond : IntegerFault} {f : Nat → Int64}
    {g : Nat → Int} (hf : ∀ n ≤ limit, (f n).toInt = g n) {cs : List Char} {i : Int64}
    (hi : ∀ n, i.toInt = g n → n ≤ limit) :
    (readDigits limit beyond 0 cs).map f = .ok i ↔
      (∀ c ∈ cs, c.isDigit = true) ∧ i.toInt = g (digitsValue cs) := by
  constructor
  · intro h
    cases hread : readDigits limit beyond 0 cs with
    | error fault =>
      rw [hread] at h
      cases h
    | ok n =>
      obtain ⟨hdigits, rfl, hn⟩ := (readDigits_eq_ok_iff (Nat.zero_le limit)).mp hread
      rw [hread] at h
      cases h
      exact ⟨hdigits, hf _ hn⟩
  · rintro ⟨hdigits, hvalue⟩
    have hle := hi _ hvalue
    rw [(readDigits_eq_ok_iff (Nat.zero_le limit)).mpr ⟨hdigits, rfl, hle⟩]
    refine congrArg Except.ok (Int64.toInt_inj.mp ?_)
    rw [hvalue, ← hf _ hle]
    rfl

theorem map_toInt (x : Except IntegerFault Nat) (f : Int → Int64) :
    (do let n ← x; pure (n : Int)).map f = x.map fun n : Nat => f n := by
  cases x <;> rfl

/-- A sign is no digit. -/
theorem not_isNumeral_cons {c : Char} (h : c.isDigit = false) (cs : List Char) :
    ¬IsNumeral (c :: cs) := by
  intro hnumeral
  have := hnumeral.2 c List.mem_cons_self
  rw [h] at this
  cases this

/-- A text is read as a word exactly where it is the word's. -/
theorem readInt64_eq_ok_iff {cs : List Char} {i : Int64} :
    readInt64 cs = .ok i ↔ SpellsInt64 i cs := by
  have hle : i.toInt ≤ 9223372036854775807 := i.toInt_le
  have hge : -9223372036854775808 ≤ i.toInt := i.le_toInt
  have hlimit : Nat.pow 2 63 = 9223372036854775808 := rfl
  have hpositive : ∀ cs, (readDigits (Nat.pow 2 63 - 1) .tooLarge 0 cs).map
      (fun n : Nat => Int64.ofNat n) = .ok i ↔
        (∀ c ∈ cs, c.isDigit = true) ∧ i.toInt = digitsValue cs := by
    intro cs
    apply map_readDigits_eq_ok_iff (g := fun n => n)
    · exact fun n hn => Int64.toInt_ofNat_of_lt (by omega)
    · exact fun n hn => by omega
  have hnegative : ∀ cs, (readDigits (Nat.pow 2 63) .tooSmall 0 cs).map
      (fun n : Nat => Int64.ofInt (-n)) = .ok i ↔
        (∀ c ∈ cs, c.isDigit = true) ∧ i.toInt = -digitsValue cs := by
    intro cs
    apply map_readDigits_eq_ok_iff (g := fun n => -n)
    · exact fun n hn => Int64.toInt_ofInt_of_le (by omega) (by omega)
    · exact fun n hn => by omega
  fun_cases readInt64 cs with
  | case1 =>
    constructor
    · intro h
      cases h
    · rintro (h | _ | _)
      exact absurd rfl h.1
  | case2 | case3 =>
    constructor
    · intro h
      cases h
    · rintro (h | h | h)
      · exact absurd h (not_isNumeral_cons rfl _)
      · exact absurd rfl h.1
  | case4 cs hne =>
    rw [hpositive]
    constructor
    · exact fun ⟨hdigits, hi⟩ => .plus ⟨hne, hdigits⟩ hi
    · rintro (h | ⟨h, hi⟩ | _)
      · exact absurd h (not_isNumeral_cons rfl _)
      · exact ⟨h.2, hi⟩
  | case5 cs hne =>
    rw [map_toInt, hnegative]
    constructor
    · exact fun ⟨hdigits, hi⟩ => .minus ⟨hne, hdigits⟩ hi
    · rintro (h | _ | ⟨h, hi⟩)
      · exact absurd h (not_isNumeral_cons rfl _)
      · exact ⟨h.2, hi⟩
  | case6 cs hempty _ _ hplus hminus =>
    rw [hpositive]
    constructor
    · exact fun ⟨hdigits, hi⟩ => .unsigned ⟨hempty, hdigits⟩ hi
    · rintro (⟨h, hi⟩ | _ | _)
      · exact ⟨h.2, hi⟩
      · exact (hplus _ rfl).elim
      · exact (hminus _ rfl).elim

theorem digitsValue_toDigits (n : Nat) : digitsValue (Nat.toDigits 10 n) = n := by
  have hread := readDigits_toDigits n .tooLarge (Nat.le_refl n)
  exact ((readDigits_eq_ok_iff (Nat.zero_le n)).mp hread).2.1.symm

theorem spellsInt64_toString (i : Int64) : SpellsInt64 i (toString i.toInt).toList := by
  obtain ⟨m, ⟨hm, htext⟩ | ⟨hm, htext⟩⟩ := toList_toString_int i.toInt
  · rw [htext]
    exact .unsigned (isNumeral_toDigits m) (by rw [digitsValue_toDigits, hm])
  · rw [htext]
    exact .minus (isNumeral_toDigits m) (by rw [digitsValue_toDigits, hm])

/-- A word is read back from its text. -/
theorem readInt64_toString (i : Int64) : readInt64 (toString i.toInt).toList = .ok i :=
  readInt64_eq_ok_iff.mpr (spellsInt64_toString i)

end ColumnStore.Text
