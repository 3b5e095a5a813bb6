-- Facts about names and quoted texts that need no reader: which characters a
-- plain name has, and how quoted names and literals are made up.
import ColumnStore.Text.Quoted
import ColumnStore.Text.Search

namespace ColumnStore.Text

theorem isNameChar_of_isPlainName {name : String} (h : isPlainName name = true) :
    ∀ c ∈ name.toList, isNameChar c = true := by
  intro c hc
  unfold isPlainName at h
  split at h
  · cases h
  · rename_i first rest heq
    rw [heq] at hc
    obtain ⟨hstart, hrest⟩ := Bool.and_eq_true_iff.mp h
    rcases List.mem_cons.mp hc with rfl | hc
    · simp only [isNameStart, isNameChar, Char.isAlphanum, Bool.or_eq_true] at hstart ⊢
      rcases hstart with hstart | hstart
      · exact Or.inl (Or.inl hstart)
      · exact Or.inr hstart
    · exact List.all_eq_true.mp hrest c hc

theorem toList_ne_nil_of_isPlainName {name : String} (h : isPlainName name = true) :
    name.toList ≠ [] := by
  intro hnil
  simp [isPlainName, hnil] at h

/-- The characters of names by their codes. -/
theorem isNameChar_eq (c : Char) : isNameChar c =
    (((decide (65 ≤ c.val ∧ c.val ≤ 90) || (97 ≤ c.val && c.val ≤ 122)) ||
      (48 ≤ c.val && c.val ≤ 57)) || c = '_') := rfl

theorem isBlank_of_isNameChar {c : Char} (h : isNameChar c = true) : isBlank c = false := by
  have hrange : 48 ≤ c.toNat ∧ c.toNat ≤ 122 := by
    rw [isNameChar_eq] at h
    simp [UInt32.le_iff_toNat_le] at h
    rcases h with ((h | h) | h) | rfl
    · exact ⟨by omega, by omega⟩
    · exact ⟨by omega, by omega⟩
    · exact ⟨by omega, by omega⟩
    · decide
  have hblank : isBlank c ≠ true := by
    intro hb
    simp only [isBlank, Bool.or_eq_true, Bool.and_eq_true, decide_eq_true_eq, beq_iff_eq] at hb
    omega
  simpa using hblank

theorem toList_quoteName (name : String) :
    (quoteName name).toList = '"' :: (doubleQuotes name.toList ++ ['"']) := by
  simp [quoteName, escapeName]

theorem toList_literal (s : String) :
    (literal s).toList = '\'' :: (s.toList.flatMap escapeChar ++ ['\'']) := by
  simp [literal, escapeLiteral]

/-- What is taken from the front ends in front of the first character that does not fit. -/
theorem span_append {p : Char → Bool} {body rest : List Char} (hbody : ∀ c ∈ body, p c = true)
    (hrest : ∀ c, rest.head? = some c → p c = false) :
    (body ++ rest).takeWhile p = body ∧ (body ++ rest).dropWhile p = rest := by
  rw [List.takeWhile_append_of_pos hbody, List.dropWhile_append_of_pos hbody]
  cases rest with
  | nil => exact ⟨List.append_nil body, rfl⟩
  | cons c cs => simp [hrest c rfl]

/-- What stands in front of a character ends where it first comes. -/
theorem span_ne {c : Char} {body rest : List Char} (hbody : c ∉ body)
    (hrest : ∀ x, rest.head? = some x → x = c) :
    (body ++ rest).takeWhile (· ≠ c) = body ∧ (body ++ rest).dropWhile (· ≠ c) = rest := by
  apply span_append
  · intro x hx
    rw [decide_eq_true_eq]
    rintro rfl
    exact hbody hx
  · exact fun x hx => decide_eq_false (not_not_intro (hrest x hx))

/-- The name in a placeholder ends at the first colon. -/
theorem exists_toList_placeholder {name : String} (h : isPlainName name = true)
    (storeType : String) : ∃ cs, (placeholder name storeType).toList = '\x7b' :: cs ∧
      String.ofList (cs.takeWhile (· ≠ ':')) = name := by
  have hcolon : ':' ∉ name.toList :=
    fun hmem => absurd (isNameChar_of_isPlainName h _ hmem) (by decide)
  refine ⟨name.toList ++ ':' :: (storeType.toList ++ ['\x7d']), by simp [placeholder], ?_⟩
  rw [(span_ne hcolon (by simp)).1, String.ofList_toList]

end ColumnStore.Text
