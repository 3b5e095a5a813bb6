-- The texts that are read as floating-point numbers. Their grammar goes part by
-- part, each part ends where the next one may begin, and a text is read exactly
-- where the grammar has it, whatever number it is then rounded to.
import ColumnStore.Number.FloatText
import ColumnStore.Proofs.Text.Integer

namespace ColumnStore.Number

open Text (IsNumeral span_append)

/-! ## The grammar -/

/-- The text, perhaps behind a sign. -/
inductive Signed (P : List Char → Prop) : List Char → Prop
  | mk {sign body : List Char} (hsign : sign ∈ [[], ['+'], ['-']]) (h : P body) :
    Signed P (sign ++ body)

/-- Digits with at most one point, which does not stand alone. -/
inductive IsMantissa : List Char → Prop
  | whole {digits : List Char} (h : IsNumeral digits) : IsMantissa digits
  | pointed {whole fraction : List Char} (hwhole : ∀ c ∈ whole, c.isDigit = true)
      (hfraction : ∀ c ∈ fraction, c.isDigit = true) (hne : whole ≠ [] ∨ fraction ≠ []) :
    IsMantissa (whole ++ '.' :: fraction)

/-- Nothing, or a signed numeral behind the letter. -/
inductive IsExponent : List Char → Prop
  | nil : IsExponent []
  | scaled {letter : Char} (hletter : letter = 'e' ∨ letter = 'E') {cs : List Char}
      (h : Signed IsNumeral cs) : IsExponent (letter :: cs)

/-- A number, or a word in any case of its letters for what is no finite number. -/
inductive IsUnsignedFloat : List Char → Prop
  | number {mantissa exponent : List Char} (hmantissa : IsMantissa mantissa)
      (hexponent : IsExponent exponent) : IsUnsignedFloat (mantissa ++ exponent)
  | word {letters : List Char}
      (h : String.ofList (letters.map Char.toLower) ∈ ["nan", "inf", "infinity"]) :
    IsUnsignedFloat letters

def SpellsFloat (cs : List Char) : Prop := Signed IsUnsignedFloat cs

/-! ## Signs -/

/-- No sign comes first. -/
def Unsigned (cs : List Char) : Prop := ∀ c ∈ cs.head?, c ≠ '+' ∧ c ≠ '-'

variable {P : List Char → Prop} {cs : List Char}

theorem splitSign_of_unsigned (h : Unsigned cs) : (splitSign cs).2 = cs := by
  unfold splitSign
  split
  · exact absurd rfl (h _ rfl).2
  · exact absurd rfl (h _ rfl).1
  · rfl

theorem signed_iff (hP : ∀ cs, P cs → Unsigned cs) : Signed P cs ↔ P (splitSign cs).2 := by
  constructor
  · rintro @⟨sign, body, hsign, h⟩
    simp only [List.mem_cons, List.not_mem_nil, or_false] at hsign
    rcases hsign with rfl | rfl | rfl
    · rwa [List.nil_append, splitSign_of_unsigned (hP body h)]
    · exact h
    · exact h
  · intro h
    unfold splitSign at h
    split at h
    · exact @Signed.mk P ['-'] _ (by decide) h
    · exact @Signed.mk P ['+'] _ (by decide) h
    · exact @Signed.mk P [] _ (by decide) h

theorem ne_sign_of_isDigit {c : Char} (h : c.isDigit = true) : c ≠ '+' ∧ c ≠ '-' := by
  constructor <;> rintro rfl <;> cases h

theorem unsigned_of_isNumeral (h : IsNumeral cs) : Unsigned cs :=
  fun c hc => ne_sign_of_isDigit (h.2 c (List.mem_of_head? hc))

/-! ## Exponents -/

theorem isSome_readExponent_iff : (readExponent cs).isSome = true ↔ IsExponent cs := by
  cases cs with
  | nil => exact ⟨fun _ => .nil, fun _ => rfl⟩
  | cons c cs =>
    have hread : (readExponent (c :: cs)).isSome = true ↔
        (c = 'e' ∨ c = 'E') ∧ IsNumeral (splitSign cs).2 := by
      by_cases hc : c = 'e' ∨ c = 'E' <;> simp [readExponent, IsNumeral, hc]
    rw [hread, ← signed_iff fun _ => unsigned_of_isNumeral]
    constructor
    · rintro ⟨hc, h⟩
      exact .scaled hc h
    · rintro (_ | ⟨hc, h⟩)
      exact ⟨hc, h⟩

theorem head_of_isExponent (h : IsExponent cs) : ∀ c, cs.head? = some c → c = 'e' ∨ c = 'E' := by
  cases h with
  | nil => exact nofun
  | scaled hletter =>
    rintro _ ⟨⟩
    exact hletter

/-! ## Numbers -/

theorem exists_mantissa_of_readUnsigned {negative : Bool}
    (h : (readUnsigned negative cs).isSome = true) :
    ∃ mantissa exponent, IsMantissa mantissa ∧ IsExponent exponent ∧ mantissa ++ exponent = cs := by
  have hwhole : ∀ c ∈ cs.takeWhile Char.isDigit, c.isDigit = true :=
    fun _ => List.mem_takeWhile_imp
  have hcs := List.takeWhile_append_dropWhile (p := Char.isDigit) (l := cs)
  unfold readUnsigned at h
  dsimp only at h
  -- the character behind the first digits tells whether there is a fraction
  split at h
  · rename_i r hpoint
    split at h
    · cases h
    · rename_i hne
      rw [Option.isSome_map, isSome_readExponent_iff] at h
      have hne : cs.takeWhile Char.isDigit ≠ [] ∨ r.takeWhile Char.isDigit ≠ [] := by
        simpa [or_iff_not_imp_left] using hne
      refine ⟨_, _, .pointed hwhole (fun _ => List.mem_takeWhile_imp) hne, h, ?_⟩
      rw [List.append_assoc, List.cons_append, List.takeWhile_append_dropWhile, ← hpoint, hcs]
  · split at h
    · cases h
    · rename_i hne
      rw [Option.isSome_map, isSome_readExponent_iff] at h
      exact ⟨_, _, .whole ⟨by simpa using hne, hwhole⟩, h, hcs⟩

theorem isSome_readUnsigned {negative : Bool} {mantissa exponent : List Char}
    (hmantissa : IsMantissa mantissa) (hexponent : IsExponent exponent) :
    (readUnsigned negative (mantissa ++ exponent)).isSome = true := by
  have hstop : ∀ c, exponent.head? = some c → c.isDigit = false := by
    intro c hc
    rcases head_of_isExponent hexponent c hc with rfl | rfl <;> rfl
  have hpoint : ∀ r, exponent ≠ '.' :: r := by
    rintro r rfl
    have := head_of_isExponent hexponent '.' rfl
    revert this
    decide
  rw [← isSome_readExponent_iff] at hexponent
  cases hmantissa with
  | whole h =>
    obtain ⟨hfront, hbehind⟩ := span_append h.2 hstop
    -- `hpoint` settles the match
    simp [readUnsigned, hfront, hbehind, h.1, hexponent]
  | @pointed whole fraction hwhole hfraction hne =>
    have hdigits : ∀ c, ('.' :: (fraction ++ exponent)).head? = some c → c.isDigit = false := by
      rintro _ ⟨⟩
      rfl
    obtain ⟨hfront, hbehind⟩ := span_append hwhole hdigits
    obtain ⟨hfraction, hrest⟩ := span_append hfraction hstop
    have hne : ¬(whole = [] ∧ fraction = []) := by
      rintro ⟨rfl, rfl⟩
      exact hne.elim (absurd rfl) (absurd rfl)
    simp [readUnsigned, hfront, hbehind, hfraction, hrest, if_neg hne, hexponent]

/-! ## Numbers and words -/

theorem exists_cons_of_isMantissa (h : IsMantissa cs) :
    ∃ c rest, cs = c :: rest ∧ (c.isDigit = true ∨ c = '.') := by
  cases h with
  | whole h =>
    obtain ⟨c, rest, rfl⟩ := List.exists_cons_of_ne_nil h.1
    exact ⟨c, rest, rfl, .inl (h.2 c List.mem_cons_self)⟩
  | @pointed whole fraction hwhole =>
    cases whole with
    | nil => exact ⟨'.', fraction, rfl, .inr rfl⟩
    | cons c rest => exact ⟨c, _, rfl, .inl (hwhole c List.mem_cons_self)⟩

theorem unsigned_of_isUnsignedFloat (h : IsUnsignedFloat cs) : Unsigned cs := by
  cases h with
  | number hmantissa =>
    obtain ⟨c, rest, rfl, hc⟩ := exists_cons_of_isMantissa hmantissa
    rintro _ ⟨⟩
    rcases hc with hc | rfl
    · exact ne_sign_of_isDigit hc
    · decide
  | word h =>
    have hfirst : ∀ word ∈ ["nan", "inf", "infinity"],
        word.toList.head? ∈ [some 'n', some 'i'] := by decide
    have hlower := hfirst _ h
    rw [String.toList_ofList, List.head?_map] at hlower
    intro c hc
    rw [hc, Option.map_some] at hlower
    constructor <;> rintro rfl <;> revert hlower <;> decide

/-- A text is read exactly where the grammar has it. -/
theorem isSome_readFloat?_iff : (readFloat? cs).isSome = true ↔ SpellsFloat cs := by
  rw [SpellsFloat, signed_iff fun _ => unsigned_of_isUnsignedFloat]
  unfold readFloat?
  dsimp only
  generalize (splitSign cs).1 = negative, (splitSign cs).2 = cs
  by_cases hword : String.ofList (cs.map Char.toLower) ∈ ["nan", "inf", "infinity"]
  · refine iff_of_true ?_ (.word hword)
    simp only [List.mem_cons, List.not_mem_nil, or_false] at hword
    rcases hword with hword | hword | hword <;> rw [hword] <;> rfl
  · have hnumber : IsUnsignedFloat cs ↔ (readUnsigned negative cs).isSome = true := by
      constructor
      · rintro (⟨hmantissa, hexponent⟩ | ⟨h⟩)
        · exact isSome_readUnsigned hmantissa hexponent
        · exact absurd h hword
      · intro h
        obtain ⟨_, _, hmantissa, hexponent, rfl⟩ := exists_mantissa_of_readUnsigned h
        exact .number hmantissa hexponent
    simp only [List.mem_cons, List.not_mem_nil, or_false, not_or] at hword
    obtain ⟨hnan, hinf, hinfinity⟩ := hword
    rw [hnumber, if_neg hnan, if_neg (by simp [hinf, hinfinity])]

end ColumnStore.Number
