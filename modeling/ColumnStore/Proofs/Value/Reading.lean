-- Constants are read back from their text. Nulls, truth values, signed words,
-- texts and arrays of these are told apart by their first character, and each
-- ends by itself, but for a word, which goes on as long as digits do.
import ColumnStore.Proofs.Text.Integer
import ColumnStore.Proofs.Text.Lists
import ColumnStore.Value.Basic

namespace ColumnStore

namespace Text

/-! ## Words -/

def isWordChar (c : Char) : Bool := c = '-' || c.isDigit

/-- Reads a signed word. -/
def readWord : Reader Int64 := fun cs =>
  match readInt64 (cs.takeWhile isWordChar) with
  | .ok n => some (n, cs.dropWhile isWordChar)
  | .error _ => none

/-- A word does not go on behind it. -/
def EndsWord (rest : List Char) : Prop := ∀ c, rest.head? = some c → isWordChar c = false

theorem endsWord_cons {c : Char} (h : isWordChar c = false) (cs : List Char) :
    EndsWord (c :: cs) := by
  rintro _ ⟨⟩
  exact h

theorem isWordChar_of_mem_toString {n : Int} {c : Char} (h : c ∈ (toString n).toList) :
    isWordChar c = true := by
  rcases mem_toString_int h with rfl | hdigit
  · rfl
  · simp [isWordChar, hdigit]

theorem readWord_toString (n : Int64) {rest : List Char} (h : EndsWord rest) :
    readWord ((toString n.toInt).toList ++ rest) = some (n, rest) := by
  have hword : ∀ c ∈ (toString n.toInt).toList, isWordChar c = true :=
    fun c hc => isWordChar_of_mem_toString hc
  obtain ⟨hfront, hbehind⟩ := span_append hword h
  rw [readWord, hfront, hbehind, readInt64_toString]

end Text

namespace Value

open Text

/-! ## Constants -/

/-- Built from nulls, truth values, signed words, texts and arrays of these. -/
inductive IsBasic : Value → Prop
  | null : IsBasic null
  | bool (b : Bool) : IsBasic (bool b)
  | int (n : Int64) : IsBasic (int n)
  | string (s : String) : IsBasic (string s)
  | array {items : List Value} (h : ∀ v ∈ items, IsBasic v) : IsBasic (array items)

/-- Reads a constant with no more than `depth` layers. -/
def readLayers : (depth : Nat) → Reader Value
  | 0, _ => none
  | depth + 1, cs =>
    match cs with
    | 'N' :: _ => (skip? "NULL" cs).map fun rest => (null, rest)
    | 't' :: _ => (skip? "true" cs).map fun rest => (bool true, rest)
    | 'f' :: _ => (skip? "false" cs).map fun rest => (bool false, rest)
    | '\'' :: _ => (readQuotedLiteral cs).map fun (s, rest) => (string s, rest)
    | '[' :: cs => do
      let (items, rest) ← readList (readLayers depth) ", " cs
      return (array items, ← skip? "]" rest)
    | cs => (readWord cs).map fun (n, rest) => (int n, rest)

/-- Reads a constant; no text has more layers than characters. -/
def read : Reader Value := fun cs => readLayers cs.length cs

theorem literals_eq_map (vs : List Value) : literals vs = vs.map literal := by
  induction vs with
  | nil => rfl
  | cons v vs ih => rw [literals, ih, List.map_cons]

/-- The characters of the constant's text. -/
def characters (v : Value) : List Char := v.literal.toList

theorem characters_array (items : List Value) : (array items).characters =
    '[' :: (", ".toList.intercalate (items.map characters) ++ [']']) := by
  have hitems : items.map characters = (items.map literal).map String.toList := by
    rw [List.map_map]
    rfl
  rw [characters, literal, literals_eq_map, hitems]
  simp [String.toList_intercalate]

theorem readLayers_word {c : Char} (h : isWordChar c = true) (depth : Nat) (cs : List Char) :
    readLayers (depth + 1) (c :: cs) = (readWord (c :: cs)).map fun (n, rest) => (int n, rest) := by
  unfold readLayers
  split
  case h_6 => rfl
  all_goals
    rename_i heq
    cases heq
    cases h

/-- No constant begins with a closing bracket. -/
theorem readLayers_closing {c : Char} (h : c = ']' ∨ c = ')') (depth : Nat) (cs : List Char) :
    readLayers depth (c :: cs) = none := by
  cases depth with
  | zero => rfl
  | succ depth => rcases h with rfl | rfl <;> rfl

/-- A constant is read back from its text, in layers that are no more than its characters. -/
theorem isRead_readLayers {v : Value} (h : v.IsBasic) : ∀ depth, v.characters.length ≤ depth →
    IsRead (readLayers depth) characters EndsWord v := by
  induction h with
  | null =>
    rintro (_ | depth) hdepth rest _
    · cases hdepth
    · rfl
  | bool b =>
    rintro (_ | depth) hdepth rest _
    · cases b <;> cases hdepth
    · cases b <;> rfl
  | int n =>
    have htext : (int n).characters = (toString n.toInt).toList := by rw [characters, literal]
    obtain ⟨c, cs, hcs⟩ := List.exists_cons_of_ne_nil (toList_toString_int_ne_nil n.toInt)
    rintro (_ | depth) hdepth rest hrest
    · rw [htext, hcs] at hdepth
      cases hdepth
    · have hc : isWordChar c = true := by
        apply isWordChar_of_mem_toString (n := n.toInt)
        rw [hcs]
        exact List.mem_cons_self
      rw [htext, hcs, List.cons_append, readLayers_word hc, ← List.cons_append, ← hcs,
        readWord_toString n hrest]
      rfl
  | string s =>
    have htext : (string s).characters = '\'' :: (s.toList.flatMap escapeChar ++ ['\'']) := by
      rw [characters, literal, toList_literal]
    rintro (_ | depth) hdepth rest _
    · rw [htext] at hdepth
      cases hdepth
    · have hread := readQuotedLiteral_literal s rest
      rw [toList_literal, List.cons_append] at hread
      rw [htext, List.cons_append]
      simp only [readLayers]
      rw [hread]
      rfl
  | @array items _ ih =>
    rintro (_ | depth) hdepth rest _
    · rw [characters_array] at hdepth
      cases hdepth
    · have hitems : ∀ v ∈ items, IsRead (readLayers depth) characters EndsWord v := by
        intro v hv
        have hlength := length_le_length_intercalate ", " characters hv
        rw [characters_array, List.length_cons, List.length_append] at hdepth
        exact ih v hv depth (by omega)
      have hlist := readList_intercalate ", " (']' :: rest) (by decide)
        hitems (fun _ => endsWord_cons (by decide) _) (endsWord_cons (by decide) _) rfl
        fun _ => readLayers_closing (Or.inl rfl) _ _
      rw [characters_array, List.cons_append, List.append_assoc, List.singleton_append]
      simp only [readLayers]
      rw [hlist]
      rfl

/-- A constant is read back from its text in front of anything that does not go on with a word. -/
theorem isRead_read {v : Value} (h : v.IsBasic) : IsRead read characters EndsWord v := by
  intro rest hrest
  apply isRead_readLayers h _ _ rest hrest
  rw [List.length_append]
  exact Nat.le_add_right _ _

end Value

end ColumnStore
