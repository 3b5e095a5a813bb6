-- Arguments joined by commas and split again. A text that closes its quotes
-- and its parentheses leaves the splitter where it found it, so what stands
-- behind the text is split as if the text were not there.
import ColumnStore.Proofs.Text.Blank
import ColumnStore.Proofs.Text.Names
import ColumnStore.Types.Reading

namespace ColumnStore.TypeText

open ColumnStore.Text

/-! ## Closed texts -/

/-- The text closes its quotes and its parentheses, and none of the `bars` stands in it outside
of both. -/
def Closes (bars : List Char) (place : Place) (depth : Nat) : List Char → Prop
  | [] => place = .plain ∧ depth = 0
  | c :: cs => (place = .plain → depth = 0 → c ∉ bars) ∧
      Closes bars (advance place depth c).1 (advance place depth c).2 cs

instance decidableCloses (bars : List Char) : (place : Place) → (depth : Nat) →
    (cs : List Char) → Decidable (Closes bars place depth cs)
  | place, depth, [] => inferInstanceAs (Decidable (place = .plain ∧ depth = 0))
  | place, depth, c :: cs =>
    have := decidableCloses bars (advance place depth c).1 (advance place depth c).2 cs
    inferInstanceAs (Decidable ((place = .plain → depth = 0 → c ∉ bars) ∧
      Closes bars (advance place depth c).1 (advance place depth c).2 cs))

/-- Parentheses are closed, none before it is opened; commas may part the text. -/
structure Balanced (cs : List Char) : Prop where
  closes : Closes [')'] .plain 0 cs

/-- A balanced text that no comma parts. -/
structure Sealed (cs : List Char) : Prop where
  closes : Closes [')', ','] .plain 0 cs

variable {bars : List Char} {place : Place} {depth : Nat} {xs ys : List Char}

theorem Closes.append (hx : Closes bars place depth xs) (hy : Closes bars .plain 0 ys) :
    Closes bars place depth (xs ++ ys) := by
  induction xs generalizing place depth with
  | nil =>
    obtain ⟨rfl, rfl⟩ := hx
    exact hy
  | cons x xs ih => exact ⟨hx.1, ih hx.2⟩

theorem Closes.of_subset {bars' : List Char} (h : Closes bars place depth xs)
    (hsub : ∀ c ∈ bars', c ∈ bars) : Closes bars' place depth xs := by
  induction xs generalizing place depth with
  | nil => exact h
  | cons x xs ih => exact ⟨fun hp hd hx => h.1 hp hd (hsub x hx), ih h.2⟩

theorem Sealed.balanced (h : Sealed xs) : Balanced xs :=
  ⟨h.closes.of_subset fun c hc => by simp_all⟩

theorem Balanced.append (hx : Balanced xs) (hy : Balanced ys) : Balanced (xs ++ ys) :=
  ⟨hx.closes.append hy.closes⟩

theorem Sealed.append (hx : Sealed xs) (hy : Sealed ys) : Sealed (xs ++ ys) :=
  ⟨hx.closes.append hy.closes⟩

/-- A parenthesis around the text changes the depth only, as long as it is not closed. -/
theorem advance_succ {c : Char} (h : place = .plain → depth = 0 → c ≠ ')') :
    advance place (depth + 1) c = ((advance place depth c).1, (advance place depth c).2 + 1) := by
  cases place with
  | escaped => rfl
  | quoted => rfl
  | plain =>
    simp only [advance]
    split
    · rfl
    · split
      · rfl
      · split
        · have := h rfl
          simp_all
          omega
        · rfl

/-- Within parentheses nothing bars a balanced text. -/
theorem Closes.within (hx : Closes [')'] place depth xs) (hy : Closes bars .plain 0 ys) :
    Closes bars place (depth + 1) (xs ++ ')' :: ys) := by
  induction xs generalizing place depth with
  | nil =>
    obtain ⟨rfl, rfl⟩ := hx
    exact ⟨fun _ h => absurd h (Nat.succ_ne_zero _), hy⟩
  | cons x xs ih =>
    refine ⟨fun _ h => absurd h (Nat.succ_ne_zero _), ?_⟩
    have hopen : place = .plain → depth = 0 → x ≠ ')' := fun hp hd h => hx.1 hp hd (by simp [h])
    rw [advance_succ hopen]
    exact ih hx.2

theorem sealed_parenthesised (h : Balanced xs) : Sealed ('(' :: (xs ++ [')'])) :=
  ⟨fun _ _ => by decide, h.closes.within ⟨rfl, rfl⟩⟩

/-- Neither a quote nor a parenthesis. -/
def isOrdinary (c : Char) : Bool := c ≠ '\'' && c ≠ '(' && c ≠ ')'

theorem closes_ordinary (h : ∀ c ∈ xs, isOrdinary c = true ∧ c ∉ bars) :
    Closes bars .plain 0 xs := by
  induction xs with
  | nil => exact ⟨rfl, rfl⟩
  | cons x xs ih =>
    obtain ⟨hx, hbar⟩ := h x List.mem_cons_self
    have hstep : advance .plain 0 x = (.plain, 0) := by
      simp_all [isOrdinary, advance]
    refine ⟨fun _ _ => hbar, ?_⟩
    rw [hstep]
    exact ih fun c hc => h c (List.mem_cons_of_mem _ hc)

theorem sealed_ordinary (h : ∀ c ∈ xs, isOrdinary c = true ∧ c ∉ [')', ',']) : Sealed xs :=
  ⟨closes_ordinary h⟩

/-- What stands inside quotes: a backslash takes the next character along, and no quote stands
alone. -/
inductive QuotedText : List Char → Prop
  | nil : QuotedText []
  | char {c : Char} {cs : List Char} (hslash : c ≠ '\\') (hquote : c ≠ '\'') (h : QuotedText cs) :
    QuotedText (c :: cs)
  | escape (c : Char) {cs : List Char} (h : QuotedText cs) : QuotedText ('\\' :: c :: cs)

theorem QuotedText.closes (hx : QuotedText xs) (hy : Closes bars .plain depth ys) :
    Closes bars .quoted depth (xs ++ '\'' :: ys) := by
  induction hx with
  | nil => exact ⟨nofun, hy⟩
  | char hslash hquote _ ih =>
    refine ⟨nofun, ?_⟩
    simpa [advance, hslash, hquote] using ih
  | escape _ _ ih => exact ⟨nofun, nofun, ih⟩

theorem quotedText_escaped (s : List Char) : QuotedText (s.flatMap escapeChar) := by
  induction s with
  | nil => exact .nil
  | cons c s ih =>
    rw [List.flatMap_cons]
    unfold escapeChar
    iterate 6
      split
      · exact ih.escape _
    rename_i hslash hquote _ _ _ _
    exact ih.char hslash hquote

theorem sealed_literal (s : String) : Sealed (literal s).toList := by
  rw [toList_literal]
  exact ⟨⟨by decide, (quotedText_escaped _).closes ⟨rfl, rfl⟩⟩⟩

theorem isOrdinary_of_isNameChar {c : Char} (h : isNameChar c = true) :
    isOrdinary c = true ∧ c ∉ [')', ','] := by
  have hne : ∀ x, isNameChar x = false → c ≠ x := by
    rintro x hx rfl
    rw [h] at hx
    cases hx
  simp [isOrdinary, hne '\'' rfl, hne '(' rfl, hne ')' rfl, hne ',' rfl]

/-! ## Splitting -/

theorem pieces_of_closes (h : Closes [','] place depth xs) : pieces place depth xs = [xs] := by
  induction xs generalizing place depth with
  | nil => rfl
  | cons x xs ih =>
    have hcomma : ¬ (place = .plain ∧ depth = 0 ∧ x = ',') := by
      rintro ⟨hp, hd, rfl⟩
      exact h.1 hp hd (by simp)
    rw [pieces, if_neg hcomma, ih h.2]

theorem pieces_append_comma (h : Closes [','] place depth xs) :
    pieces place depth (xs ++ ',' :: ys) = xs :: pieces .plain 0 ys := by
  induction xs generalizing place depth with
  | nil =>
    obtain ⟨rfl, rfl⟩ := h
    rw [List.nil_append, pieces, if_pos ⟨rfl, rfl, rfl⟩]
  | cons x xs ih =>
    have hcomma : ¬ (place = .plain ∧ depth = 0 ∧ x = ',') := by
      rintro ⟨hp, hd, rfl⟩
      exact h.1 hp hd (by simp)
    rw [List.cons_append, pieces, if_neg hcomma, ih h.2]

theorem pieces_ne_nil (place : Place) (depth : Nat) (cs : List Char) :
    pieces place depth cs ≠ [] := by
  cases cs with
  | nil => simp [pieces]
  | cons c cs =>
    rw [pieces]
    split
    · simp
    · split <;> simp

/-- A blank behind a comma goes away with the trimming. -/
theorem map_trim_pieces_blank (cs : List Char) :
    (pieces .plain 0 (' ' :: cs)).map trim = (pieces .plain 0 cs).map trim := by
  rw [pieces, if_neg (by decide)]
  have hstep : advance .plain 0 ' ' = (.plain, 0) := by decide
  rw [hstep]
  cases h : pieces .plain 0 cs with
  | nil => exact absurd h (pieces_ne_nil _ _ _)
  | cons p ps => simp [trim_cons_blank]

/-- A text that is split off as it is: no comma parts it, and no blank stands around it. -/
structure IsPiece (cs : List Char) : Prop where
  closes : Closes [','] .plain 0 cs
  trimmed : trim cs = cs
  nonempty : cs ≠ []

/-- An argument as it is written: nothing in it parts it, not even in parentheses, and no blank
stands around it. -/
structure IsArgument (cs : List Char) : Prop where
  closed : Sealed cs
  trimmed : trim cs = cs
  nonempty : cs ≠ []

theorem Sealed.unparted (h : Sealed xs) : Closes [','] .plain 0 xs :=
  h.closes.of_subset fun c hc => by simp_all

theorem IsArgument.isPiece (h : IsArgument xs) : IsPiece xs :=
  ⟨h.closed.unparted, h.trimmed, h.nonempty⟩

/-- The arguments behind one another, with a comma and a blank between them. -/
def joined (args : List (List Char)) : List Char := [',', ' '].intercalate args

theorem joined_cons_cons (x y : List Char) (args : List (List Char)) :
    joined (x :: y :: args) = x ++ ',' :: ' ' :: joined (y :: args) := by
  simp [joined, List.intercalate_cons_cons]

theorem exists_joined_cons (x : List Char) (args : List (List Char)) :
    ∃ rest, joined (x :: args) = x ++ rest := by
  cases args with
  | nil => exact ⟨[], by simp [joined]⟩
  | cons y args => exact ⟨_, joined_cons_cons x y args⟩

theorem toList_intercalate_comma (texts : List String) :
    (", ".intercalate texts).toList = joined (texts.map String.toList) := by
  rw [String.toList_intercalate]
  rfl

theorem balanced_joined {args : List (List Char)} (h : ∀ x ∈ args, Balanced x) :
    Balanced (joined args) := by
  induction args with
  | nil => exact ⟨⟨rfl, rfl⟩⟩
  | cons x args ih =>
    have hx := h x List.mem_cons_self
    cases args with
    | nil => simpa [joined] using hx
    | cons y args =>
      have hseparator : Balanced [',', ' '] := ⟨closes_ordinary (by simp [isOrdinary])⟩
      rw [joined_cons_cons]
      exact hx.append (hseparator.append (ih fun z hz => h z (List.mem_cons_of_mem _ hz)))

/-- The first argument is split off; the others are split as if they stood alone. -/
theorem map_trim_pieces_joined_cons (args : List (List Char)) (h : Closes [','] .plain 0 xs) :
    ∃ ps, (pieces .plain 0 (joined (xs :: args))).map trim = trim xs :: ps ∧
      (args ≠ [] → ps = (pieces .plain 0 (joined args)).map trim) := by
  cases args with
  | nil =>
    refine ⟨[], ?_, fun hne => absurd rfl hne⟩
    rw [joined, List.intercalate_singleton, pieces_of_closes h, List.map_singleton]
  | cons y args =>
    refine ⟨_, ?_, fun _ => rfl⟩
    rw [joined_cons_cons, pieces_append_comma h, List.map_cons, map_trim_pieces_blank]

theorem map_trim_pieces_joined {x : List Char} {args : List (List Char)}
    (h : ∀ y ∈ x :: args, IsPiece y) :
    (pieces .plain 0 (joined (x :: args))).map trim = x :: args := by
  induction args generalizing x with
  | nil =>
    have hx := h x List.mem_cons_self
    rw [joined, List.intercalate_singleton, pieces_of_closes hx.closes, List.map_singleton,
      hx.trimmed]
  | cons y args ih =>
    have hx := h x List.mem_cons_self
    obtain ⟨ps, hpieces, hrest⟩ := map_trim_pieces_joined_cons (y :: args) hx.closes
    rw [hpieces, hx.trimmed, hrest (List.cons_ne_nil _ _),
      ih fun z hz => h z (List.mem_cons_of_mem _ hz)]

/-- Splitting gives back the arguments that were joined. -/
theorem splitArguments_joined {args : List (List Char)} (h : ∀ x ∈ args, IsPiece x) :
    splitArguments (joined args) = args := by
  cases args with
  | nil => rfl
  | cons x args =>
    unfold splitArguments
    rw [map_trim_pieces_joined h]
    have hlast : (x :: args).getLast? ≠ some [] := by
      intro hempty
      exact (h [] (List.mem_of_getLast? hempty)).nonempty rfl
    exact if_neg hlast

theorem splitArguments_texts (texts : List String) (h : ∀ a ∈ texts, IsArgument a.toList) :
    splitArguments (joined (texts.map String.toList)) = texts.map String.toList := by
  apply splitArguments_joined
  intro x hx
  obtain ⟨a, ha, rfl⟩ := List.mem_map.mp hx
  exact (h a ha).isPiece

end ColumnStore.TypeText
