-- The names of record fields in a column type. A name stands as it is in front
-- of the field's type, so it is read back where it is one word; quotes and
-- backticks around it are taken off.
import ColumnStore.Proofs.Types.Splitting
import Mathlib.Data.List.Induction

namespace ColumnStore.TypeText

open ColumnStore.Text

/-! ## Quotes around a word -/

theorem Sealed.tail {c : Char} {cs : List Char} (hc : isOrdinary c = true) (h : Sealed (c :: cs)) :
    Sealed cs := by
  have hstep : advance .plain 0 c = (.plain, 0) := by
    simp_all [isOrdinary, advance]
  have htail := h.closes.2
  rw [hstep] at htail
  exact ⟨htail⟩

/-- An ordinary character at the end has closed nothing. -/
theorem Closes.of_concat {bars : List Char} {place : Place} {depth : Nat} {c : Char}
    {cs : List Char} (hc : isOrdinary c = true) (h : Closes bars place depth (cs ++ [c])) :
    Closes bars place depth cs ∧ c ∉ bars := by
  simp only [isOrdinary, Bool.and_eq_true, decide_eq_true_eq] at hc
  induction cs generalizing place depth with
  | nil =>
    obtain ⟨hbar, hplace, hdepth⟩ := h
    cases place with
    | escaped => cases hplace
    | quoted =>
      simp only [advance, hc, if_false] at hplace
      split at hplace <;> cases hplace
    | plain =>
      simp only [advance, hc, if_false] at hdepth
      exact ⟨⟨rfl, hdepth⟩, hbar rfl hdepth⟩
  | cons x xs ih =>
    obtain ⟨hxs, hbar⟩ := ih h.2
    exact ⟨⟨h.1, hxs⟩, hbar⟩

theorem Sealed.init {c : Char} {cs : List Char} (hc : isOrdinary c = true)
    (h : Sealed (cs ++ [c])) : Sealed cs := ⟨(h.closes.of_concat hc).1⟩

theorem Closes.getLast?_ne_comma {place : Place} {depth : Nat} {cs : List Char}
    (h : Closes [','] place depth cs) : cs.getLast? ≠ some ',' := by
  intro hlast
  obtain ⟨front, rfl⟩ := List.getLast?_eq_some_iff.mp hlast
  have hcomma := (h.of_concat (by decide)).2
  simp at hcomma

theorem sealed_dropWhile {x : Char} {cs : List Char} (hx : isOrdinary x = true) (h : Sealed cs) :
    Sealed (cs.dropWhile (· = x)) := by
  induction cs with
  | nil => exact h
  | cons c cs ih =>
    by_cases hc : c = x
    · rw [List.dropWhile_cons_of_pos (by simpa using hc)]
      exact ih (h.tail (hc ▸ hx))
    · rw [List.dropWhile_cons_of_neg (by simpa using hc)]
      exact h

theorem sealed_dropWhile_reverse {x : Char} {cs : List Char} (hx : isOrdinary x = true)
    (h : Sealed cs) : Sealed (cs.reverse.dropWhile (· = x)).reverse := by
  induction cs using List.reverseRecOn with
  | nil => exact h
  | append_singleton cs c ih =>
    rw [List.reverse_append, List.reverse_singleton, List.singleton_append]
    by_cases hc : c = x
    · rw [List.dropWhile_cons_of_pos (by simpa using hc)]
      exact ih (h.init (hc ▸ hx))
    · rw [List.dropWhile_cons_of_neg (by simpa using hc), List.reverse_cons, List.reverse_reverse]
      exact h

theorem sealed_trimChar {x : Char} {cs : List Char} (hx : isOrdinary x = true) (h : Sealed cs) :
    Sealed (trimChar x cs) := sealed_dropWhile_reverse hx (sealed_dropWhile hx h)

theorem mem_of_mem_trimChar {x c : Char} {cs : List Char} (h : c ∈ trimChar x cs) : c ∈ cs := by
  have hfront := List.dropWhile_subset _ (List.mem_reverse.mp h)
  exact List.dropWhile_subset _ (List.mem_reverse.mp hfront)

theorem trimChar_eq_self {x : Char} {cs : List Char} (h : x ∉ cs) : trimChar x cs = cs := by
  have hkeep : ∀ ys : List Char, x ∉ ys → ys.dropWhile (· = x) = ys := by
    intro ys hys
    cases ys with
    | nil => rfl
    | cons y ys =>
      apply List.dropWhile_cons_of_neg
      have : y ≠ x := by
        rintro rfl
        exact hys List.mem_cons_self
      simpa using this
  rw [trimChar, hkeep cs h, hkeep cs.reverse (by simpa using h), List.reverse_reverse]

/-- The name without the double quotes around it, and then without backticks. -/
def bare (name : String) : String := .ofList (trimChar '\x60' (trimChar '"' name.toList))

/-! ## Words -/

/-- A word that is taken for a name in front of a type: it closes its quotes, and no blank, no
opening parenthesis and no comma outside quotes stands in it. -/
structure IsLabel (name : String) : Prop where
  closes : Closes [','] .plain 0 name.toList
  unbroken : ∀ c ∈ name.toList, isBlank c = false ∧ c ≠ '('
  nonempty : name ≠ ""

/-- One word in front of a type: it closes its quotes, and no blank, no parenthesis and no comma
outside quotes stands in it. -/
structure IsWord (name : String) : Prop where
  closed : Sealed name.toList
  unbroken : ∀ c ∈ name.toList, isBlank c = false ∧ c ≠ '('
  nonempty : name ≠ ""

variable {name : String}

theorem IsLabel.isPiece (h : IsLabel name) : IsPiece name.toList :=
  ⟨h.closes, trim_eq_self_of_unbroken fun c hc => (h.unbroken c hc).1, by simpa using h.nonempty⟩

theorem IsWord.isLabel (h : IsWord name) : IsLabel name :=
  ⟨h.closed.unparted, h.unbroken, h.nonempty⟩

theorem IsWord.bare (h : IsWord name) (hbare : bare name ≠ "") : IsWord (bare name) := by
  refine ⟨?_, fun c hc => ?_, hbare⟩
  · rw [TypeText.bare, String.toList_ofList]
    exact sealed_trimChar (by decide) (sealed_trimChar (by decide) h.closed)
  · rw [TypeText.bare, String.toList_ofList] at hc
    exact h.unbroken c (mem_of_mem_trimChar (mem_of_mem_trimChar hc))

/-- A text without blanks, quotes, parentheses and commas is one word. -/
theorem isWord_of_quiet (h : ∀ c ∈ name.toList, isOrdinary c = true ∧ isBlank c = false ∧ c ≠ ',')
    (hne : name ≠ "") : IsWord name := by
  have hordinary : ∀ c ∈ name.toList, c ≠ '(' ∧ c ≠ ')' := fun c hc => by
    have hc := (h c hc).1
    simp only [isOrdinary, Bool.and_eq_true, decide_eq_true_eq] at hc
    exact ⟨hc.1.2, hc.2⟩
  refine ⟨sealed_ordinary fun c hc => ⟨(h c hc).1, ?_⟩, fun c hc => ⟨(h c hc).2.1, ?_⟩, hne⟩
  · simpa using ⟨(hordinary c hc).2, (h c hc).2.2⟩
  · exact (hordinary c hc).1

theorem isWord_of_isPlainName (h : isPlainName name = true) : IsWord name := by
  have hchars := isNameChar_of_isPlainName h
  refine isWord_of_quiet (fun c hc => ?_) ?_
  · obtain ⟨hordinary, hbar⟩ := isOrdinary_of_isNameChar (hchars c hc)
    have hcomma : c ≠ ',' := by
      rintro rfl
      exact hbar (by decide)
    exact ⟨hordinary, isBlank_of_isNameChar (hchars c hc), hcomma⟩
  · rintro rfl
    cases h

theorem bare_of_isPlainName (h : isPlainName name = true) : bare name = name := by
  have habsent : ∀ x, isNameChar x = false → x ∉ name.toList := fun x hx hmem => by
    rw [isNameChar_of_isPlainName h x hmem] at hx
    cases hx
  rw [bare, trimChar_eq_self (habsent '"' rfl), trimChar_eq_self (habsent '\x60' rfl),
    String.ofList_toList]

/-- A word in front of a type is taken for the name of a field. -/
theorem splitName_field {type : List Char} (hname : IsLabel name) (htrim : trim type = type)
    (htype : type ≠ []) :
    splitName (name.toList ++ ([' '] ++ type)) = (some (bare name).toList, type) := by
  have hword : ∀ c ∈ name.toList, (!isBlank c) = true := fun c hc => by
    rw [(hname.unbroken c hc).1]
    rfl
  have hopening : '(' ∉ name.toList := fun hmem => (hname.unbroken _ hmem).2 rfl
  have hcomma := hname.closes.getLast?_ne_comma
  have hblank : ∀ c, ([' '] ++ type).head? = some c → (!isBlank c) = false := by
    rintro _ ⟨⟩
    rfl
  obtain ⟨hfront, hbehind⟩ := span_append hword hblank
  unfold splitName
  dsimp only
  rw [hfront, hbehind, List.singleton_append, trim_cons_blank, htrim, bare, String.toList_ofList]
  simp [htype, hopening, hcomma]

end ColumnStore.TypeText
