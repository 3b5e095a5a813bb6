-- Quoted texts are read back. A quoted name ends at the first quote that
-- stands alone, a literal at the first one without a backslash, so each reader
-- gives what was written and leaves what stands behind it.
import ColumnStore.Proofs.Text.Names
import ColumnStore.Text.Quoted
import Mathlib.Data.List.Basic
import Mathlib.Tactic.SplitIfs

namespace ColumnStore

namespace Text

/-- The text behind the words that it begins with. -/
def skip? (words : String) (cs : List Char) : Option (List Char) := words.toList.isPrefixOf? cs

theorem skip?_append (words : String) (cs : List Char) : skip? words (words.toList ++ cs) = some cs :=
  List.isPrefixOf?_eq_some_iff_append_eq.mpr rfl

/-! ## Names -/

theorem readName_cons {c : Char} (h : c ≠ '"') (cs : List Char) :
    readName (c :: cs) = (readName cs).map fun (n, r) => (c :: n, r) := by
  rw [readName]
  · rintro cs rfl
    exact absurd rfl h
  · rintro rfl
    exact absurd rfl h

theorem readName_closing {rest : List Char} (h : rest.head? ≠ some '"') :
    readName ('"' :: rest) = some ([], rest) := by
  rw [readName]
  rintro cs rfl
  exact h rfl

/-- A name is read up to its closing quote, whatever quotes are in it. -/
theorem readName_doubleQuotes (name : List Char) {rest : List Char}
    (h : rest.head? ≠ some '"') :
    readName (doubleQuotes name ++ '"' :: rest) = some (name, rest) := by
  induction name with
  | nil => exact readName_closing h
  | cons c cs ih =>
    unfold doubleQuotes
    split
    · rename_i hquote
      rw [List.cons_append, List.cons_append, readName, ih, hquote]
      rfl
    · rename_i hquote
      rw [List.cons_append, readName_cons hquote, ih]
      rfl

/-- Reads a name in its quotes. -/
def readQuotedName : List Char → Option (String × List Char)
  | '"' :: cs => (readName cs).map fun (name, rest) => (.ofList name, rest)
  | _ => none

theorem readQuotedName_quoteName (name : String) {rest : List Char}
    (h : rest.head? ≠ some '"') :
    readQuotedName ((quoteName name).toList ++ rest) = some (name, rest) := by
  rw [toList_quoteName, List.cons_append, List.append_assoc, List.singleton_append, readQuotedName,
    readName_doubleQuotes _ h]
  simp

/-! ## Literals -/

theorem readLiteral_escapeChar (c : Char) (cs : List Char) :
    readLiteral (escapeChar c ++ cs) = (readLiteral cs).map fun (s, r) => (c :: s, r) := by
  unfold escapeChar
  split_ifs with hslash hquote hline hreturn htab hnul
  iterate 6
    subst c
    simp only [List.cons_append, List.nil_append, readLiteral, unescapeChar]
    cases readLiteral cs <;> rfl
  rw [List.singleton_append, readLiteral]
  · rintro rfl
    exact absurd rfl hslash
  · rintro _ _ rfl
    exact absurd rfl hslash
  · rintro rfl
    exact absurd rfl hquote

/-- A literal is read up to its closing quote, whatever characters are in it. -/
theorem readLiteral_escaped (s rest : List Char) :
    readLiteral (s.flatMap escapeChar ++ '\'' :: rest) = some (s, rest) := by
  induction s with
  | nil => rfl
  | cons c s ih =>
    rw [List.flatMap_cons, List.append_assoc, readLiteral_escapeChar, ih]
    rfl

/-- Reads a literal in its quotes. -/
def readQuotedLiteral : List Char → Option (String × List Char)
  | '\'' :: cs => (readLiteral cs).map fun (s, rest) => (.ofList s, rest)
  | _ => none

theorem readQuotedLiteral_literal (s : String) (rest : List Char) :
    readQuotedLiteral ((literal s).toList ++ rest) = some (s, rest) := by
  rw [toList_literal, List.cons_append, List.append_assoc, List.singleton_append,
    readQuotedLiteral, readLiteral_escaped]
  simp

theorem readQuotedLiteral_eq_none {cs : List Char} (h : cs.head? ≠ some '\'') :
    readQuotedLiteral cs = none := by
  unfold readQuotedLiteral
  split
  · exact absurd rfl h
  · rfl

/-- What would end a line or a text stands in no escaped text as it is. -/
theorem not_mem_controls_of_mem_escaped {s : List Char} {c : Char}
    (h : c ∈ s.flatMap escapeChar) : c ∉ ['\n', '\r', '\t', '\x00'] := by
  obtain ⟨a, _, hc⟩ := List.mem_flatMap.mp h
  unfold escapeChar at hc
  split_ifs at hc with hslash hquote hline hreturn htab hnul
  iterate 6
    rcases List.mem_cons.mp hc with rfl | hc
    · decide
    · rw [List.mem_singleton.mp hc]
      decide
  rw [List.mem_singleton.mp hc]
  simp [hline, hreturn, htab, hnul]

theorem not_mem_literal {c : Char} (h : c ∈ ['\n', '\r', '\t', '\x00']) (s : String) :
    c ∉ (literal s).toList := by
  have hquote : c ≠ '\'' := by
    rintro rfl
    revert h
    decide
  rw [toList_literal]
  intro hmem
  rcases List.mem_cons.mp hmem with hc | hmem
  · exact hquote hc
  · rcases List.mem_append.mp hmem with hescaped | hc
    · exact not_mem_controls_of_mem_escaped hescaped h
    · exact hquote (List.mem_singleton.mp hc)

/-- A literal ends where it was meant to, whatever stands in it and behind it, and stays on its
line. -/
theorem literal_is_read_to_its_own_end (s rest : String) :
    readQuotedLiteral (literal s ++ rest).toList = some (s, rest.toList) ∧
      '\n' ∉ (literal s).toList ∧ '\r' ∉ (literal s).toList ∧ '\t' ∉ (literal s).toList ∧
      '\x00' ∉ (literal s).toList := by
  refine ⟨?_, ?_, ?_, ?_, ?_⟩
  · rw [String.toList_append]
    exact readQuotedLiteral_literal s rest.toList
  all_goals exact not_mem_literal (by decide) s

end Text

/-! ## Objects -/

namespace ObjectName

open Text

/-- Reads an object's name in quotes, and its schema if one stands in front of it. -/
def read? (cs : List Char) : Option (ObjectName × List Char) := do
  let (first, rest) ← readQuotedName cs
  match rest with
  | '.' :: rest => do
    let (name, rest) ← readQuotedName rest
    return (⟨some first, name⟩, rest)
  | rest => return (⟨none, first⟩, rest)

/-- The object as it is written: an empty schema is none. -/
def written (o : ObjectName) : ObjectName := { o with schema := o.schema.filter (!·.isEmpty) }

/-- Behind a name, a quote or a dot would go on with it. -/
def Ends (rest : List Char) : Prop := rest.head? ≠ some '"' ∧ rest.head? ≠ some '.'

theorem ends_nil : Ends [] := ⟨nofun, nofun⟩

theorem ends_cons {c : Char} (hquote : c ≠ '"') (hdot : c ≠ '.') (cs : List Char) :
    Ends (c :: cs) := ⟨by simpa using hquote, by simpa using hdot⟩

/-- An object is read back from its text. -/
theorem read?_quoted (o : ObjectName) {rest : List Char} (h : Ends rest) :
    read? (o.quoted.toList ++ rest) = some (o.written, rest) := by
  obtain ⟨hquote, hdot⟩ := h
  have hbare : ∀ name, read? ((quoteName name).toList ++ rest) = some (⟨none, name⟩, rest) := by
    intro name
    rw [read?, readQuotedName_quoteName name hquote]
    cases rest with
    | nil => rfl
    | cons c rest =>
      have hc : c ≠ '.' := fun hc => hdot (congrArg some hc)
      simp [hc]
  obtain ⟨schema, name⟩ := o
  unfold quoted qualifiedName
  cases schema with
  | none => exact hbare name
  | some s =>
    dsimp only
    split
    · rename_i hempty
      have hschema : Option.filter (!·.isEmpty) (some s) = none := by simp [Option.filter, hempty]
      rw [written, hschema]
      exact hbare name
    · rename_i hempty
      rw [String.toList_append, String.toList_append, List.append_assoc, List.append_assoc, read?,
        readQuotedName_quoteName s (by simp)]
      have hname := readQuotedName_quoteName name hquote
      have hschema : Option.filter (!·.isEmpty) (some s) = some s := by simp [Option.filter, hempty]
      simp [hname, written, hschema]

theorem read?_qualifiedName (schema : Option String) (name : String) :
    read? (qualifiedName schema name).toList = some ((mk schema name).written, []) := by
  have hread := read?_quoted (mk schema name) ends_nil
  rwa [List.append_nil, quoted] at hread

/-- The object whose name stands behind the words that the text begins with. -/
def behind? (words text : String) : Option ObjectName := do
  return (← read? (← skip? words text.toList)).1

theorem behind?_eq_written (words : String) (o : ObjectName) {rest : String}
    (h : Ends rest.toList) : behind? words (words ++ (o.quoted ++ rest)) = some o.written := by
  rw [behind?, String.toList_append, skip?_append, String.toList_append]
  simp [read?_quoted o h]

/-- The object that is named first in a text. -/
def first? (text : String) : Option ObjectName :=
  (read? (text.toList.dropWhile (· ≠ '"'))).map (·.1)

theorem first?_eq_written {words : String} (hwords : '"' ∉ words.toList) (o : ObjectName)
    {rest : String} (h : Ends rest.toList) :
    first? (words ++ (o.quoted ++ rest)) = some o.written := by
  have hskip : ∀ c ∈ words.toList, decide (c ≠ '"') = true := by
    intro c hc
    rw [decide_eq_true_eq]
    rintro rfl
    exact hwords hc
  obtain ⟨cs, hcs⟩ : ∃ cs, o.quoted.toList = '"' :: cs := by
    unfold quoted qualifiedName
    split
    · exact ⟨_, toList_quoteName _⟩
    · split
      · exact ⟨_, toList_quoteName _⟩
      · rw [String.toList_append, String.toList_append, toList_quoteName]
        exact ⟨_, rfl⟩
  have hread := read?_quoted o h
  rw [hcs] at hread
  rw [first?, String.toList_append, List.dropWhile_append_of_pos hskip, String.toList_append, hcs,
    List.cons_append, List.dropWhile_cons_of_neg (by simp), ← List.cons_append, hread]
  rfl

end ObjectName

end ColumnStore
