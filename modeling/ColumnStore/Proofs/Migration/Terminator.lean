-- Raw SQL of a migration and the terminator behind it. The text is written
-- trimmed and with the terminator at its end. Given once more it is written the
-- same, unless trimming takes a part of the terminator away and leaves a part.
import ColumnStore.Migration.Command
import ColumnStore.Proofs.Text.Blank

namespace ColumnStore

open Text

namespace Text

theorem toList_trimmed (s : String) : (trimmed s).toList = trim s.toList := by
  rw [trimmed, String.toList_ofList]

theorem trimmed_eq_iff {s t : String} : trimmed s = t ↔ trim s.toList = t.toList := by
  rw [← String.toList_inj, toList_trimmed]

theorem trimmed_trimmed (s : String) : trimmed (trimmed s) = trimmed s := by
  rw [trimmed_eq_iff, toList_trimmed, trim_trim]

end Text

namespace Command

variable {p : Provider} {text : String}

theorem rawText_of_suffix (hp : p.terminator ≠ "")
    (h : p.terminator.toList <:+ (trimmed text).toList) : rawText p text = trimmed text := by
  have hends : ends p.terminator.toList (trimmed text).toList = true :=
    List.isSuffixOf_iff_suffix.mpr h
  simp [rawText, hp, hends]

theorem rawText_of_not_suffix (h : ¬p.terminator.toList <:+ (trimmed text).toList) :
    rawText p text = trimmed text ++ p.terminator := by
  have hends : ends p.terminator.toList (trimmed text).toList = false := by
    rw [Bool.eq_false_iff]
    exact fun hends => h (List.isSuffixOf_iff_suffix.mp hends)
  simp [rawText, hends, Provider.terminate]

/-- The terminator stands at the end, whether it was there or not. -/
theorem suffix_rawText (hp : p.terminator ≠ "") (text : String) :
    p.terminator.toList <:+ (rawText p text).toList := by
  by_cases h : p.terminator.toList <:+ (trimmed text).toList
  · rw [rawText_of_suffix hp h]
    exact h
  · rw [rawText_of_not_suffix h, String.toList_append]
    exact List.suffix_append _ _

/-- A trimmed text does not end in blanks. -/
theorem not_suffix_of_isBlankText (hp : p.terminator ≠ "") (hblank : isBlankText p.terminator = true)
    (text : String) : ¬p.terminator.toList <:+ (trimmed text).toList := by
  intro h
  have hne : p.terminator.toList ≠ [] := by simpa using hp
  have hlast := List.getLast?_eq_some_getLast hne
  have hend : (trimmed text).toList.getLast? = some (p.terminator.toList.getLast hne) := by
    obtain ⟨front, hfront⟩ := h
    rw [← hfront, List.getLast?_append, hlast]
    rfl
  rw [toList_trimmed] at hend
  have hkept := (trim_eq_self_iff.mp (trim_trim text.toList)).2 _ hend
  have := List.all_eq_true.mp hblank _ (List.getLast_mem hne)
  rw [hkept] at this
  cases this

theorem trimmed_append_eq_left_iff (text terminator : String) :
    trimmed (trimmed text ++ terminator) = trimmed text ↔ isBlankText terminator = true := by
  rw [trimmed_eq_iff, String.toList_append, toList_trimmed,
    trim_append_eq_left_iff (trim_trim text.toList), isBlankText, List.all_eq_true]

/-- Raw SQL is written the same again where it came with its terminator, where the terminator is
blank, so that it is trimmed off as a whole, and where nothing of it is trimmed off. -/
theorem rawText_rawText_iff (hp : p.terminator ≠ "") :
    rawText p (rawText p text) = rawText p text ↔
      p.terminator.toList <:+ (trimmed text).toList ∨ isBlankText p.terminator = true ∨
        trimmed (trimmed text ++ p.terminator) = trimmed text ++ p.terminator := by
  by_cases hsuffix : p.terminator.toList <:+ (trimmed text).toList
  · have hagain : p.terminator.toList <:+ (trimmed (trimmed text)).toList := by
      rwa [trimmed_trimmed]
    rw [rawText_of_suffix hp hsuffix, rawText_of_suffix hp hagain, trimmed_trimmed]
    exact iff_of_true rfl (Or.inl hsuffix)
  rw [rawText_of_not_suffix hsuffix, or_iff_right hsuffix, ← trimmed_append_eq_left_iff text]
  by_cases hagain : p.terminator.toList <:+ (trimmed (trimmed text ++ p.terminator)).toList
  · rw [rawText_of_suffix hp hagain, or_iff_right]
    intro hblank
    exact not_suffix_of_isBlankText hp ((trimmed_append_eq_left_iff text _).mp hblank) _ hagain
  · rw [rawText_of_not_suffix hagain, String.append_left_inj, or_iff_left]
    intro hkept
    rw [hkept, String.toList_append] at hagain
    exact hagain (List.suffix_append _ _)

/-- All raw SQL is written the same again exactly where the terminator is blank or has no blank at
either end. -/
theorem rawText_idempotent_iff (hp : p.terminator ≠ "") :
    (∀ text, rawText p (rawText p text) = rawText p text) ↔
      isBlankText p.terminator = true ∨ trimmed p.terminator = p.terminator := by
  have hne : p.terminator.toList ≠ [] := by simpa using hp
  simp only [rawText_rawText_iff hp]
  constructor
  · intro h
    rcases h "" with hsuffix | hblank | hkept
    · exact absurd (List.suffix_nil.mp hsuffix) hne
    · exact Or.inl hblank
    · exact Or.inr hkept
  · rintro (hblank | hkept) text
    · exact Or.inr (Or.inl hblank)
    · refine Or.inr (Or.inr ?_)
      rw [trimmed_eq_iff, String.toList_append, toList_trimmed]
      by_cases htext : trim text.toList = []
      · rw [htext]
        exact trimmed_eq_iff.mp hkept
      · exact trim_between (trim_trim _) (trimmed_eq_iff.mp hkept) htext hne []

end Command

namespace Operation

open Command

theorem statements_sql (p : Provider) (m : Model) (text : String) :
    (sql text).statements p m = .ok [rawText p text] := rfl

/-- Raw SQL is one command, which ends with the terminator. The command given as raw SQL is itself
again exactly where the text came with its terminator, or the terminator is blank, or nothing of
what was written would be trimmed off. For all texts at once, the terminator is blank or has no
blank at either end. -/
theorem raw_text_is_terminated_once_iff (m : Model) {p : Provider} (hp : p.terminator ≠ "") :
    (∀ text, ∃ command, (sql text).statements p m = .ok [command] ∧
      p.terminator.toList <:+ command.toList ∧
      ((sql command).statements p m = .ok [command] ↔
        p.terminator.toList <:+ (trimmed text).toList ∨ isBlankText p.terminator = true ∨
          trimmed (trimmed text ++ p.terminator) = trimmed text ++ p.terminator)) ∧
    ((∀ text, ∃ command, (sql text).statements p m = .ok [command] ∧
      (sql command).statements p m = .ok [command]) ↔
        isBlankText p.terminator = true ∨ trimmed p.terminator = p.terminator) := by
  have hagain : ∀ text, (sql (rawText p text)).statements p m = .ok [rawText p text] ↔
      rawText p (rawText p text) = rawText p text := by
    intro text
    rw [statements_sql, Except.ok.injEq, List.singleton_inj]
  constructor
  · intro text
    refine ⟨rawText p text, statements_sql p m text, suffix_rawText hp text, ?_⟩
    rw [hagain, rawText_rawText_iff hp]
  · rw [← rawText_idempotent_iff hp]
    refine forall_congr' fun text => ?_
    simp only [statements_sql p m text, Except.ok.injEq, List.singleton_inj, exists_eq_left', hagain]

/-- A text that ends in a part of the terminator is terminated as any other. -/
theorem half_terminated_text_is_terminated_once :
    let p : Provider := { terminator := "\n;;" }
    let command := "SELECT 1\n;\n;;"
    p.terminator ≠ "" ∧ (sql " SELECT 1\n; ").statements p { } = .ok [command] ∧
      (sql command).statements p { } = .ok [command] := by
  intro p command
  have hp : p.terminator ≠ "" := by decide
  have hwritten : rawText p " SELECT 1\n; " = command := by decide
  obtain ⟨_, hcommand, _, hagain⟩ := (raw_text_is_terminated_once_iff { } hp).1 " SELECT 1\n; "
  rw [statements_sql, hwritten] at hcommand
  cases hcommand
  exact ⟨hp, congrArg (Except.ok [·]) hwritten, hagain.mpr (Or.inr (Or.inr (by decide)))⟩

/-- A terminator that ends in a line break is put behind what is left of itself. -/
theorem line_break_repeats_terminator :
    let p : Provider := { terminator := ";\n" }
    (sql "SELECT 1").statements p { } = .ok ["SELECT 1;\n"] ∧
      (sql "SELECT 1;\n").statements p { } = .ok ["SELECT 1;;\n"] := by
  intro p
  have hfirst : rawText p "SELECT 1" = "SELECT 1;\n" := by decide
  have hagain : rawText p "SELECT 1;\n" = "SELECT 1;;\n" := by decide
  exact ⟨congrArg (Except.ok [·]) hfirst, congrArg (Except.ok [·]) hagain⟩

end Operation

end ColumnStore
