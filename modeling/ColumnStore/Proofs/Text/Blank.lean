-- Texts without blanks at their ends. Trimming keeps exactly these, takes
-- nothing but blanks from any other text, and has nothing more to take away the
-- second time.
import ColumnStore.Text.Search
import Mathlib.Data.List.DropRight

namespace ColumnStore.Text

theorem isBlank_of_head?_dropWhile {cs : List Char} {c : Char}
    (h : (cs.dropWhile isBlank).head? = some c) : isBlank c = false := by
  have := List.head?_dropWhile_not isBlank cs
  rw [h] at this
  simpa using this

/-- Trimming keeps a text that has no blank at either end, and no other text. -/
theorem trim_eq_self_iff {cs : List Char} : trim cs = cs ↔
    (∀ c, cs.head? = some c → isBlank c = false) ∧
      ∀ c, cs.getLast? = some c → isBlank c = false := by
  constructor
  · intro h
    have hfront : cs.dropWhile isBlank = cs := by
      apply (List.dropWhile_sublist _).eq_of_length_le
      have := length_trimEnd_le (cs.dropWhile isBlank)
      rw [← trim, h] at this
      exact this
    rw [trim, hfront] at h
    constructor
    · intro c hc
      rw [← hfront] at hc
      exact isBlank_of_head?_dropWhile hc
    · intro c hc
      rw [← h, trimEnd, List.getLast?_reverse] at hc
      exact isBlank_of_head?_dropWhile hc
  · rintro ⟨hfirst, hlast⟩
    have hkeep : ∀ xs : List Char, (∀ c, xs.head? = some c → isBlank c = false) →
        xs.dropWhile isBlank = xs := by
      intro xs h
      cases xs with
      | nil => rfl
      | cons x xs => exact List.dropWhile_cons_of_neg (by simp [h x rfl])
    unfold trim trimEnd
    rw [hkeep cs hfirst, hkeep cs.reverse (by simpa using hlast), List.reverse_reverse]

theorem trim_eq_self_of_unbroken {cs : List Char} (h : ∀ c ∈ cs, isBlank c = false) :
    trim cs = cs :=
  trim_eq_self_iff.mpr
    ⟨fun c hc => h c (List.mem_of_head? hc), fun c hc => h c (List.mem_of_getLast? hc)⟩

/-- What stands between two trimmed texts does not matter. -/
theorem trim_between {xs ys : List Char} (hx : trim xs = xs) (hy : trim ys = ys) (hxs : xs ≠ [])
    (hys : ys ≠ []) (middle : List Char) : trim (xs ++ (middle ++ ys)) = xs ++ (middle ++ ys) := by
  apply trim_eq_self_iff.mpr
  constructor
  · intro c hc
    cases xs with
    | nil => exact absurd rfl hxs
    | cons x xs => exact (trim_eq_self_iff.mp hx).1 c hc
  · intro c hc
    rw [← List.append_assoc, List.getLast?_append, List.getLast?_eq_some_getLast hys] at hc
    exact (trim_eq_self_iff.mp hy).2 c (by rw [List.getLast?_eq_some_getLast hys]; simpa using hc)

theorem trim_cons_blank (cs : List Char) : trim (' ' :: cs) = trim cs := by
  unfold trim
  rw [List.dropWhile_cons_of_pos (by decide)]

theorem trim_append_blank {c : Char} (hc : isBlank c = false) (cs : List Char) :
    trim (c :: (cs ++ [' '])) = trim (c :: cs) := by
  have hdrop : ∀ xs : List Char, (c :: xs).dropWhile isBlank = c :: xs :=
    fun xs => List.dropWhile_cons_of_neg (by simp [hc])
  unfold trim
  rw [hdrop, hdrop, ← List.cons_append, trimEnd, List.reverse_append, List.reverse_singleton,
    List.singleton_append, List.dropWhile_cons_of_pos (by decide), trimEnd]

/-! ## What is taken away -/

theorem trimEnd_prefix (cs : List Char) : trimEnd cs <+: cs := List.rdropWhile_prefix isBlank cs

theorem trim_trim (cs : List Char) : trim (trim cs) = trim cs := by
  apply trim_eq_self_iff.mpr
  constructor
  · intro c hc
    obtain ⟨rest, hrest⟩ := trimEnd_prefix (cs.dropWhile isBlank)
    have hfirst : (cs.dropWhile isBlank).head? = some c := by
      rw [← hrest, List.head?_append, ← trim, hc]
      rfl
    exact isBlank_of_head?_dropWhile hfirst
  · intro c hc
    rw [trim, trimEnd, List.getLast?_reverse] at hc
    exact isBlank_of_head?_dropWhile hc

theorem filter_dropWhile (cs : List Char) :
    (cs.dropWhile isBlank).filter (!isBlank ·) = cs.filter (!isBlank ·) := by
  induction cs with
  | nil => rfl
  | cons c cs ih =>
    by_cases hc : isBlank c = true
    · rw [List.dropWhile_cons_of_pos hc, ih, List.filter_cons_of_neg (by simp [hc])]
    · rw [List.dropWhile_cons_of_neg hc]

/-- Nothing but blanks is taken away. -/
theorem filter_trim (cs : List Char) : (trim cs).filter (!isBlank ·) = cs.filter (!isBlank ·) := by
  rw [trim, trimEnd, List.filter_reverse, filter_dropWhile, List.filter_reverse,
    List.reverse_reverse, filter_dropWhile]

/-- What is trimmed off behind a trimmed text is all of it only where it is blank. -/
theorem trim_append_eq_left_iff {xs ys : List Char} (hx : trim xs = xs) :
    trim (xs ++ ys) = xs ↔ ∀ c ∈ ys, isBlank c = true := by
  constructor
  · intro h
    have hkept := filter_trim (xs ++ ys)
    rw [h, List.filter_append, List.self_eq_append_right, List.filter_eq_nil_iff] at hkept
    intro c hc
    simpa using hkept c hc
  · intro h
    have hend : trimEnd (xs ++ ys) = trimEnd xs := by
      rw [trimEnd, List.reverse_append,
        List.dropWhile_append_of_pos fun c hc => h c (List.mem_reverse.mp hc), ← trimEnd]
    cases xs with
    | nil => rw [List.nil_append, trim, List.dropWhile_eq_nil_iff.mpr h]; rfl
    | cons x xs =>
      have hfront : ∀ zs, (x :: zs).dropWhile isBlank = x :: zs :=
        fun zs => List.dropWhile_cons_of_neg (by simp [(trim_eq_self_iff.mp hx).1 x rfl])
      rw [trim, hfront] at hx
      rw [trim, List.cons_append, hfront, ← List.cons_append, hend, hx]

end ColumnStore.Text
