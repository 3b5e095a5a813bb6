-- Enumeration members as a column type lists them: a quoted name and a code.
-- What is written is read back, with any quote, comma or `=` in the name.
import ColumnStore.Proofs.Text.Integer
import ColumnStore.Proofs.Text.Quoted
import ColumnStore.Proofs.Types.Splitting
import ColumnStore.Types.ColumnType

namespace ColumnStore.TypeText

open ColumnStore.Text

/-! ## Names -/

/-- The characters that are written as a backslash and a letter, which are not read back. -/
def isLettered (c : Char) : Bool := c = '\n' || c = '\r' || c = '\t' || c = '\x00'

theorem escapeChar_of_not_isLettered {c : Char} (h : isLettered c = false) :
    escapeChar c = if c = '\\' then ['\\', '\\'] else if c = '\'' then ['\\', '\''] else [c] := by
  simp only [isLettered, Bool.or_eq_false_iff, decide_eq_false_iff_not] at h
  simp [escapeChar, h]

/-- Each backslash written twice. -/
def doubleSlashes (cs : List Char) : List Char :=
  cs.flatMap fun c => if c = '\\' then ['\\', '\\'] else [c]

theorem replacePair_cons {x y z a : Char} {cs : List Char} (h : a = x → cs.head? ≠ some y) :
    replacePair x y z (a :: cs) = a :: replacePair x y z cs := by
  cases cs with
  | nil => rfl
  | cons b cs =>
    rw [replacePair, if_neg]
    rintro ⟨ha, rfl⟩
    exact h ha rfl

theorem head?_escaped_ne_quote {cs : List Char} :
    (cs.flatMap escapeChar).head? ≠ some '\'' := by
  cases cs with
  | nil => simp
  | cons c cs =>
    rw [List.flatMap_cons]
    unfold escapeChar
    iterate 6
      split
      · simp
    rename_i hquote _ _ _ _
    simpa using hquote

/-- Taking the backslashes off the quotes leaves the backslashes that stand for themselves. -/
theorem replacePair_quote {cs : List Char} (h : ∀ c ∈ cs, isLettered c = false) :
    replacePair '\\' '\'' '\'' (cs.flatMap escapeChar) = doubleSlashes cs := by
  induction cs with
  | nil => rfl
  | cons c cs ih =>
    have hcs := ih fun x hx => h x (List.mem_cons_of_mem _ hx)
    rw [List.flatMap_cons, escapeChar_of_not_isLettered (h c List.mem_cons_self), doubleSlashes,
      List.flatMap_cons, ← doubleSlashes]
    by_cases hslash : c = '\\'
    · subst hslash
      simp only [if_true, List.cons_append, List.nil_append]
      rw [replacePair_cons (by simp), replacePair_cons fun _ => head?_escaped_ne_quote, hcs]
    · by_cases hquote : c = '\''
      · subst hquote
        simp [replacePair, hcs]
      · simp only [hslash, hquote, if_false, List.cons_append, List.nil_append]
        rw [replacePair_cons fun hc => absurd hc hslash, hcs]

theorem replacePair_slash (cs : List Char) :
    replacePair '\\' '\\' '\\' (doubleSlashes cs) = cs := by
  induction cs with
  | nil => rfl
  | cons c cs ih =>
    rw [doubleSlashes, List.flatMap_cons, ← doubleSlashes]
    by_cases hslash : c = '\\'
    · subst hslash
      simp [replacePair, ih]
    · simp only [hslash, if_false, List.cons_append, List.nil_append]
      rw [replacePair_cons fun hc => absurd hc hslash, ih]

/-- The name as it is read back from its literal. -/
def respelled (name : String) : String :=
  .ofList (replacePair '\\' '\\' '\\'
    (replacePair '\\' '\'' '\'' (name.toList.flatMap escapeChar)))

theorem respelled_eq_self {name : String} (h : ∀ c ∈ name.toList, isLettered c = false) :
    respelled name = name := by
  rw [respelled, replacePair_quote h, replacePair_slash, String.ofList_toList]

theorem mem_of_mem_replacePair {x y z c : Char} {cs : List Char} (h : c ∈ replacePair x y z cs) :
    c ∈ cs ∨ c = z := by
  fun_induction replacePair x y z cs with
  | case1 a b cs _ ih =>
    rcases List.mem_cons.mp h with rfl | h
    · exact Or.inr rfl
    · rcases ih h with h | h
      · exact Or.inl (List.mem_cons_of_mem _ (List.mem_cons_of_mem _ h))
      · exact Or.inr h
  | case2 a b cs _ ih =>
    rcases List.mem_cons.mp h with rfl | h
    · exact Or.inl List.mem_cons_self
    · rcases ih h with h | h
      · exact Or.inl (List.mem_cons_of_mem _ h)
      · exact Or.inr h
  | case3 => exact Or.inl h

/-- Whatever the name was, it is read back as it stands when it is written again. -/
theorem not_isLettered_of_mem_respelled {name : String} {c : Char}
    (h : c ∈ (respelled name).toList) : isLettered c = false := by
  rw [respelled, String.toList_ofList] at h
  rcases mem_of_mem_replacePair h with h | rfl
  · rcases mem_of_mem_replacePair h with h | rfl
    · simpa [isLettered, and_assoc] using not_mem_controls_of_mem_escaped h
    · rfl
  · rfl

theorem unquote?_literal (s : String) :
    unquote? (literal s).toList = some (s.toList.flatMap escapeChar) := by
  rw [toList_literal, unquote?, if_pos (by simp), List.dropLast_concat]

theorem trim_literal (s : String) : trim (literal s).toList = (literal s).toList := by
  rw [toList_literal]
  have hquote : trim ['\''] = ['\''] := by decide
  exact trim_between hquote hquote (by simp) (by simp) _

/-! ## Members -/

/-- An entry is parted at its last `=`. -/
theorem splitCode?_append {name code : List Char} (h : '=' ∉ code) :
    splitCode? (name ++ '=' :: code) = some (name, code) := by
  have hcode : ((name ++ '=' :: code).reverse.takeWhile (· ≠ '=')).reverse = code := by
    rw [List.reverse_append, List.reverse_cons, List.append_assoc, List.singleton_append,
      List.takeWhile_append_of_pos (by
        intro c hc
        have : c ≠ '=' := by
          rintro rfl
          exact h (List.mem_reverse.mp hc)
        simpa using this), List.takeWhile_cons_of_neg (by simp), List.append_nil,
      List.reverse_reverse]
  unfold splitCode?
  simp only [hcode]
  rw [if_pos (by simp)]
  have hlength : (name ++ '=' :: code).length - code.length - 1 = name.length := by
    simp
    omega
  rw [hlength, List.take_left]

theorem toList_memberText (m : EnumMember) :
    (StoreType.memberText m).toList =
      ((literal m.name).toList ++ [' ']) ++ '=' :: ' ' :: (toString m.code.toInt).toList := by
  simp [StoreType.memberText]

/-- A member is read back from its text, with its name as far as a literal keeps it. -/
theorem readMember_memberText (type : String) (m : EnumMember) :
    readMember type (StoreType.memberText m).toList = .ok { m with name := respelled m.name } := by
  have hcode : '=' ∉ ' ' :: (toString m.code.toInt).toList := by
    intro hmem
    rcases List.mem_cons.mp hmem with hc | hc
    · cases hc
    · rcases mem_toString_int hc with hc | hc <;> cases hc
  have hname : trim ((literal m.name).toList ++ [' ']) = (literal m.name).toList := by
    have htrim := trim_literal m.name
    rw [toList_literal] at htrim ⊢
    rw [List.cons_append, trim_append_blank (by decide), htrim]
  unfold readMember
  rw [toList_memberText, splitCode?_append hcode]
  simp only [hname, unquote?_literal, trim_cons_blank, trim_toString_int, readInt64_toString]
  rw [respelled]

end ColumnStore.TypeText
