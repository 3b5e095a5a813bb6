-- Constants in SQL text: every one closes its quotes, and no two minus signs
-- stand behind one another in it outside of them.
import ColumnStore.Proofs.Text.Comment
import ColumnStore.Proofs.Text.Integer
import ColumnStore.Value.Basic

namespace ColumnStore

open ColumnStore.Text

/-! ## Numbers -/

theorem Number.quiet_signed (negative : Bool) {body : List Char} (hne : body ≠ [])
    (h : ∀ c ∈ body, c.isDigit = true ∨ c = '.') :
    Quiet (if negative then '-' :: body else body) := by
  have hbody : Settled body := by
    apply settled_unmarked hne
    rw [List.all_eq_true]
    intro c hc
    rcases h c hc with hdigit | rfl
    · exact isUnmarked_of_isNameChar (by simp [isNameChar, Char.isAlphanum, hdigit])
    · decide
  cases negative
  · exact hbody.quiet
  · exact hbody.minus.quiet

theorem Number.quiet_int (n : Int) : Quiet (toString n).toList := by
  have hdigits : ∀ m c, c ∈ Nat.toDigits 10 m → c.isDigit = true ∨ c = '.' := fun m c hc =>
    Or.inl (Nat.isDigit_of_mem_toDigits (by decide) (by decide) hc)
  obtain ⟨m, ⟨_, hm⟩ | ⟨_, hm⟩⟩ := toList_toString_int n
  · rw [hm]
    exact quiet_signed false Nat.toDigits_ne_nil (hdigits m)
  · rw [hm]
    exact quiet_signed true Nat.toDigits_ne_nil (hdigits m)

theorem Number.mem_positional {digits : List Char} {point : Int} {c : Char}
    (h : c ∈ positional digits point) : c ∈ digits ∨ c = '0' ∨ c = '.' := by
  unfold positional at h
  split at h
  · simp only [List.cons_append, List.mem_cons, List.mem_append, List.mem_replicate] at h
    rcases h with h | h | ⟨_, h⟩ | h
    · exact Or.inr (Or.inl h)
    · exact Or.inr (Or.inr h)
    · exact Or.inr (Or.inl h)
    · exact Or.inl h
  · split at h
    · rcases List.mem_append.mp h with h | h
      · exact Or.inl h
      · exact Or.inr (Or.inl (List.mem_replicate.mp h).2)
    · rcases List.mem_append.mp h with h | h
      · exact Or.inl (List.mem_of_mem_take h)
      · rcases List.mem_cons.mp h with h | h
        · exact Or.inr (Or.inr h)
        · exact Or.inl (List.mem_of_mem_drop h)

theorem Number.quiet_plainFloat (f : Float) : Quiet (plainFloat f).toList := by
  unfold plainFloat
  rw [String.toList_ofList]
  generalize shortest .up (.ofBits f.toBits) = s
  apply quiet_signed
  · split
    · simp
    · unfold positional
      split
      · simp
      · split <;> simp [Nat.toDigits_ne_nil]
  · intro c hc
    split at hc
    · rw [List.mem_singleton.mp hc]
      exact Or.inl rfl
    · rcases mem_positional hc with hc | rfl | rfl
      · exact Or.inl (Nat.isDigit_of_mem_toDigits (by decide) (by decide) hc)
      · exact Or.inl rfl
      · exact Or.inr rfl

/-- The digits of a number with zeros in front, so that one stands before the point. -/
theorem Number.Decimal.quiet_text (d : Decimal) : Quiet d.text.toList := by
  unfold text
  rw [String.toList_ofList]
  generalize hds : List.replicate (d.places + 1 - (Nat.toDigits 10 d.coefficient).length) '0' ++
    Nat.toDigits 10 d.coefficient = ds
  have hlength : d.places < ds.length := by
    rw [← hds, List.length_append, List.length_replicate]
    omega
  have hdigit : ∀ c ∈ ds, c.isDigit = true ∨ c = '.' := by
    intro c hc
    rw [← hds] at hc
    rcases List.mem_append.mp hc with hc | hc
    · rw [(List.mem_replicate.mp hc).2]
      exact Or.inl rfl
    · exact Or.inl (Nat.isDigit_of_mem_toDigits (by decide) (by decide) hc)
  have hwhole : ds.take (ds.length - d.places) ≠ [] := by
    rw [← List.length_pos_iff, List.length_take]
    omega
  apply quiet_signed
  · split
    · exact hwhole
    · simp
  · intro c hc
    split at hc
    · exact hdigit c (List.mem_of_mem_take hc)
    · rcases List.mem_append.mp hc with hc | hc
      · exact hdigit c (List.mem_of_mem_take hc)
      · rcases List.mem_cons.mp hc with rfl | hc
        · exact Or.inr rfl
        · exact hdigit c (List.mem_of_mem_drop hc)

/-! ## All constants -/

namespace Value

theorem quiet_floatText (f : Float) : Quiet (floatText f).toList := by
  unfold floatText
  split
  · exact ⟨⟨by decide, by decide⟩, by decide, rfl⟩
  · split
    · split
      · exact ⟨⟨by decide, by decide⟩, by decide, rfl⟩
      · exact ⟨⟨by decide, by decide⟩, by decide, rfl⟩
    · exact Number.quiet_plainFloat f

/-- A literal within a call of the function that gives it its type. -/
theorem quiet_call {opening closing : String} (s : String) (hne : opening.toList ≠ [])
    (hopening : opening.toList.all isUnmarked = true)
    (hclosing : closing.toList.all isUnmarked = true) :
    Quiet (opening ++ Text.literal s ++ closing).toList := by
  rw [String.toList_append, String.toList_append, List.append_assoc]
  exact ((settled_literal s).toPasses.between _ _ hne hopening hclosing).quiet

mutual

/-- A constant's text closes its quotes and opens no comment. -/
theorem quiet_literal : (v : Value) → Quiet v.literal.toList
  | .null => ⟨⟨by decide, by decide⟩, by decide, rfl⟩
  | .bool true => ⟨⟨by decide, by decide⟩, by decide, rfl⟩
  | .bool false => ⟨⟨by decide, by decide⟩, by decide, rfl⟩
  | .int n => Number.quiet_int n.toInt
  | .uint n => Number.quiet_int n.toNat
  | .bigInt n => quiet_call n.text (by decide) (by decide) (by decide)
  | .float f => quiet_floatText f
  | .decimal d => d.quiet_text
  | .string s => (settled_literal s).quiet
  | .date d => quiet_call d.text (by decide) (by decide) (by decide)
  | .moment m => quiet_call m.text (by decide) (by decide) (by decide)
  | .uuid u => quiet_call u.text (by decide) (by decide) (by decide)
  | .json j => (settled_literal j.text).quiet
  | .array items => by
    have hitems := passes_intercalate fun s hs => (quiet_literals items s hs).toPasses
    rw [List.any_eq_false.mpr fun _ _ => Bool.false_ne_true] at hitems
    rw [literal, String.toList_append, String.toList_append, List.append_assoc,
      String.toList_intercalate]
    exact (hitems.between _ _ (by decide) (by decide) (by decide)).quiet

theorem quiet_literals : (vs : List Value) → ∀ s ∈ literals vs, Quiet s.toList
  | [] => by
    rw [literals]
    exact fun s hs => nomatch hs
  | v :: vs => by
    rw [literals]
    intro s hs
    rcases List.mem_cons.mp hs with rfl | hs
    · exact quiet_literal v
    · exact quiet_literals vs s hs

end

end Value

end ColumnStore
