-- Arguments that were joined by commas are split again. What an argument has to
-- look like is said by counting: outside quotes no more parentheses are closed
-- than were opened so far, all are closed in the end, and a comma stands only
-- where one is open. The depth that the splitter keeps is that count.
import ColumnStore.Proofs.Types.Splitting
import Mathlib.Data.List.Infix

namespace ColumnStore.TypeText

open ColumnStore.Text

variable {bars cs bare xs ys zs : List Char} {depth : Nat}

/-! ## What stands outside quotes -/

/-- All quotes in the text are closed, and `bare` is what stands outside of them. -/
inductive Outside : List Char → List Char → Prop
  | nil : Outside [] []
  | char {c : Char} {cs bare : List Char} (hquote : c ≠ '\'') (h : Outside cs bare) :
    Outside (c :: cs) (c :: bare)
  | quoted {inner cs bare : List Char} (hinner : QuotedText inner) (h : Outside cs bare) :
    Outside ('\'' :: (inner ++ '\'' :: cs)) bare

theorem Outside.append (hx : Outside xs bare) (hy : Outside ys zs) :
    Outside (xs ++ ys) (bare ++ zs) := by
  induction hx with
  | nil => exact hy
  | char hquote _ ih => exact ih.char hquote
  | quoted hinner _ ih =>
    rw [List.cons_append, List.append_assoc, List.cons_append]
    exact ih.quoted hinner

theorem outside_unquoted (h : '\'' ∉ cs) : Outside cs cs := by
  induction cs with
  | nil => exact .nil
  | cons c cs ih =>
    rw [List.mem_cons, not_or] at h
    exact (ih h.2).char (Ne.symm h.1)

theorem outside_literal (s : String) : Outside (literal s).toList [] := by
  rw [toList_literal]
  exact .quoted (quotedText_escaped _) .nil

theorem Outside.quote_not_mem (h : Outside cs bare) : '\'' ∉ bare := by
  induction h with
  | nil => exact List.not_mem_nil
  | char hquote _ ih => exact List.not_mem_cons_of_ne_of_not_mem (Ne.symm hquote) ih
  | quoted _ _ ih => exact ih

theorem advance_plain_fst {c : Char} (hquote : c ≠ '\'') (depth : Nat) :
    (advance .plain depth c).1 = .plain := by
  unfold advance
  split_ifs <;> rfl

/-- Quoted text changes neither the place nor the depth, whatever stands in it. -/
theorem Outside.closes (h : Outside cs bare) (hbare : Closes bars .plain depth bare)
    (hquote : '\'' ∉ bars) : Closes bars .plain depth cs := by
  induction h generalizing depth with
  | nil => exact hbare
  | char hquote _ ih =>
    obtain ⟨hbar, hrest⟩ := hbare
    refine ⟨hbar, ?_⟩
    rw [advance_plain_fst hquote] at hrest ⊢
    exact ih hrest
  | quoted hinner _ ih => exact ⟨fun _ _ => hquote, hinner.closes (ih hbare)⟩

/-! ## Counting parentheses -/

/-- Parentheses in order by their numbers: as many are closed as are opened, no beginning of the
text closes more than it opens, and one that ends at a comma opens more than it closes. -/
structure InOrder (bare : List Char) : Prop where
  balanced : bare.count ')' = bare.count '('
  opened : ∀ front, front <+: bare → front.count ')' ≤ front.count '('
  enclosed : ∀ front, front ++ [','] <+: bare → front.count ')' < front.count '('

instance decidableInOrder (bare : List Char) : Decidable (InOrder bare) :=
  decidable_of_iff (bare.count ')' = bare.count '(' ∧
      (∀ front ∈ bare.inits, front.count ')' ≤ front.count '(') ∧
      ∀ front ∈ bare.inits, front ++ [','] <+: bare → front.count ')' < front.count '(')
    ⟨fun ⟨hbalanced, hopened, henclosed⟩ =>
      ⟨hbalanced, fun front h => hopened front ((List.mem_inits _ _).mpr h),
        fun front h => henclosed front
          ((List.mem_inits _ _).mpr ((List.prefix_append _ _).trans h)) h⟩,
    fun h =>
      ⟨h.balanced, fun front hfront => h.opened front ((List.mem_inits _ _).mp hfront),
        fun front _ => h.enclosed front⟩⟩

/-- Outside quotes the depth goes up and down with the numbers of the parentheses. Where none is
open it cannot go down. -/
theorem depth_advance {c : Char} (hquote : c ≠ '\'') (hopen : c = ')' → depth ≠ 0) :
    (advance .plain depth c).2 + [c].count ')' = depth + [c].count '(' := by
  by_cases hopening : c = '('
  · subst hopening
    rfl
  by_cases hclosing : c = ')'
  · subst hclosing
    exact Nat.sub_add_cancel (Nat.pos_of_ne_zero (hopen rfl))
  · simp [advance, hquote, hopening, hclosing]

/-- From the depth that counting gives, the rest of a text in order closes what is open and has no
comma outside. -/
theorem closes_of_inOrder {rest : List Char} (seen : List Char) (h : InOrder (seen ++ rest))
    (hquote : '\'' ∉ rest) (hdepth : depth + seen.count ')' = seen.count '(') :
    Closes [')', ','] .plain depth rest := by
  -- On what is still to be read: the depth stays the number of parentheses that `seen` leaves open.
  induction rest generalizing seen depth with
  | nil =>
    have hbalanced := h.balanced
    rw [List.append_nil] at hbalanced
    exact ⟨rfl, by omega⟩
  | cons c rest ih =>
    rw [List.mem_cons, not_or] at hquote
    have hprefix : seen ++ [c] <+: seen ++ c :: rest := ⟨rest, by simp⟩
    have hclosing : c = ')' → depth ≠ 0 := by
      rintro rfl
      have hopened : seen.count ')' + 1 ≤ seen.count '(' := by simpa using h.opened _ hprefix
      omega
    have hcomma : c = ',' → depth ≠ 0 := by
      rintro rfl
      have henclosed := h.enclosed _ hprefix
      omega
    have hstep := depth_advance (Ne.symm hquote.1) hclosing
    refine ⟨fun _ hzero hbar => ?_, ?_⟩
    · rcases List.mem_pair.mp hbar with hc | hc
      · exact hclosing hc hzero
      · exact hcomma hc hzero
    · rw [advance_plain_fst (Ne.symm hquote.1)]
      refine ih (seen ++ [c]) (by simpa using h) hquote.2 ?_
      rw [List.count_append, List.count_append]
      omega

theorem Outside.sealed (h : Outside cs bare) (horder : InOrder bare) : Sealed cs :=
  ⟨h.closes (closes_of_inOrder [] horder h.quote_not_mem rfl) (by decide)⟩

/-! ## The law -/

/-- An argument to be joined with others: no blank stands around it, its quotes are closed, and
outside of them its parentheses are in order and its commas within some of them. -/
structure IsJoinable (cs : List Char) : Prop where
  nonempty : cs ≠ []
  trimmed : trim cs = cs
  ordered : ∃ bare, Outside cs bare ∧ InOrder bare

theorem IsJoinable.isArgument (h : IsJoinable cs) : IsArgument cs := by
  obtain ⟨bare, houtside, horder⟩ := h.ordered
  exact ⟨houtside.sealed horder, h.trimmed, h.nonempty⟩

/-- Joined arguments are split at the commas that joined them and at no others. -/
theorem splitting_undoes_joining {texts : List String} (h : ∀ t ∈ texts, IsJoinable t.toList) :
    (splitArguments (", ".intercalate texts).toList).map String.ofList = texts := by
  have hargs : ∀ t ∈ texts, IsArgument t.toList := fun t ht => (h t ht).isArgument
  rw [toList_intercalate_comma, splitArguments_texts texts hargs]
  simp

/-- In the first argument an escaped quote, a comma and a parenthesis stand in quotes; in the second
one a quoted parenthesis stands among nested ones. -/
theorem quoted_separators_do_not_split :
    let texts := ["'It\\'s, (odd\\\\' = -2", "b Tuple(DateTime64(3, 'UTC)'), Map(String, Int8))"]
    let text :=
      "'It\\'s, (odd\\\\' = -2, b Tuple(DateTime64(3, 'UTC)'), Map(String, Int8))"
    (∀ t ∈ texts, IsJoinable t.toList) ∧ ", ".intercalate texts = text ∧
      (splitArguments text.toList).map String.ofList = texts := by
  intro texts text
  have hcode : Outside " = -2".toList " = -2".toList := outside_unquoted (by decide)
  have hmember : IsJoinable "'It\\'s, (odd\\\\' = -2".toList :=
    ⟨by decide, by decide, _, (outside_literal "It's, (odd\\").append hcode, by decide⟩
  have hfront : Outside "b Tuple(DateTime64(3, ".toList "b Tuple(DateTime64(3, ".toList :=
    outside_unquoted (by decide)
  have hback : Outside "), Map(String, Int8))".toList "), Map(String, Int8))".toList :=
    outside_unquoted (by decide)
  have hfield : IsJoinable "b Tuple(DateTime64(3, 'UTC)'), Map(String, Int8))".toList :=
    ⟨by decide, by decide, _, hfront.append ((outside_literal "UTC)").append hback), by decide⟩
  have hargs : ∀ t ∈ texts, IsJoinable t.toList :=
    List.forall_mem_cons.mpr ⟨hmember, List.forall_mem_singleton.mpr hfield⟩
  have htext : ", ".intercalate texts = text := by decide
  exact ⟨hargs, htext, htext ▸ splitting_undoes_joining hargs⟩

end ColumnStore.TypeText
