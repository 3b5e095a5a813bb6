-- Lists with a separator between their items are read back item by item. It
-- is enough to know that one item is read back in front of a separator and in
-- front of what stands behind the list.
import ColumnStore.Proofs.Text.Quoted

namespace ColumnStore

namespace Text

/-- Reads from the front of a text and leaves the rest. -/
abbrev Reader (α : Type) := List Char → Option (α × List Char)

variable {α : Type}

/-- Reads further items, each behind the separator, and no more than `most`. -/
def readMore (read : Reader α) (separator : String) : (most : Nat) → Reader (List α)
  | 0, cs => some ([], cs)
  | most + 1, cs =>
    match skip? separator cs with
    | none => some ([], cs)
    | some behind => do
      let (x, rest) ← read behind
      let (xs, rest) ← readMore read separator most rest
      return (x :: xs, rest)

/-- Reads a list, which is empty where no item stands. -/
def readList (read : Reader α) (separator : String) : Reader (List α) := fun cs =>
  match read cs with
  | none => some ([], cs)
  | some (x, rest) => do
    let (xs, rest) ← readMore read separator rest.length rest
    return (x :: xs, rest)

/-- Reads items one behind the other to the end of the text, and no more than `most`. -/
def readAll (read : Reader α) : (most : Nat) → List Char → Option (List α)
  | 0, cs => if cs.isEmpty then some [] else none
  | most + 1, cs =>
    if cs.isEmpty then some []
    else do
      let (x, rest) ← read cs
      return x :: (← readAll read most rest)

/-- The items, each behind the separator. -/
def separated (separator : String) (text : α → List Char) (xs : List α) : List Char :=
  xs.flatMap fun x => separator.toList ++ text x

/-- The item is read back from its text where something that `Ends` it stands behind. -/
def IsRead (read : Reader α) (text : α → List Char) (Ends : List Char → Prop) (x : α) : Prop :=
  ∀ rest, Ends rest → read (text x ++ rest) = some (x, rest)

section items

variable {read : Reader α} {separator : String} {text : α → List Char}
  {Ends : List Char → Prop} {xs : List α} {rest : List Char}

theorem separated_cons (x : α) (xs : List α) : separated separator text (x :: xs) =
    separator.toList ++ (text x ++ separated separator text xs) := by
  simp [separated]

theorem intercalate_cons_eq_separated (x : α) (xs : List α) :
    separator.toList.intercalate ((x :: xs).map text) = text x ++ separated separator text xs := by
  induction xs generalizing x with
  | nil => simp [separated]
  | cons y xs ih =>
    rw [List.map_cons, List.map_cons, List.intercalate_cons_cons, ← List.map_cons, ih,
      separated_cons, List.append_assoc]

theorem mem_intercalate {c : Char}
    (h : c ∈ separator.toList.intercalate (xs.map text)) :
    c ∈ separator.toList ∨ ∃ x ∈ xs, c ∈ text x := by
  cases xs with
  | nil => cases h
  | cons x xs =>
    rw [intercalate_cons_eq_separated, List.mem_append] at h
    rcases h with h | h
    · exact Or.inr ⟨x, List.mem_cons_self, h⟩
    · obtain ⟨y, hy, h⟩ := List.mem_flatMap.mp h
      exact (List.mem_append.mp h).imp id fun h => ⟨y, List.mem_cons_of_mem _ hy, h⟩

theorem length_le_length_separated (hne : separator.toList ≠ []) (text : α → List Char)
    (xs : List α) :
    xs.length ≤ (separated separator text xs).length := by
  induction xs with
  | nil => exact Nat.le_refl _
  | cons x xs ih =>
    have hpos := List.length_pos_iff.mpr hne
    rw [separated_cons]
    simp only [List.length_cons, List.length_append]
    omega

theorem length_le_length_intercalate (separator : String) (text : α → List Char) {x : α}
    (h : x ∈ xs) :
    (text x).length ≤ (separator.toList.intercalate (xs.map text)).length := by
  induction xs with
  | nil => cases h
  | cons y xs ih =>
    rw [List.map_cons]
    cases xs with
    | nil =>
      rw [List.mem_singleton.mp h]
      simp
    | cons z xs =>
      rw [List.map_cons, List.intercalate_cons_cons, ← List.map_cons, List.length_append,
        List.length_append]
      rcases List.mem_cons.mp h with rfl | h
      · omega
      · have := ih h
        omega

theorem ends_separated (hseparator : ∀ cs, Ends (separator.toList ++ cs)) (hrest : Ends rest)
    (text : α → List Char) (xs : List α) : Ends (separated separator text xs ++ rest) := by
  cases xs with
  | nil => exact hrest
  | cons x xs =>
    rw [separated_cons, List.append_assoc]
    exact hseparator _

theorem readMore_separated {most : Nat} (hmost : xs.length ≤ most)
    (hread : ∀ x ∈ xs, IsRead read text Ends x) (hseparator : ∀ cs, Ends (separator.toList ++ cs))
    (hrest : Ends rest) (hstop : skip? separator rest = none) :
    readMore read separator most (separated separator text xs ++ rest) = some (xs, rest) := by
  induction xs generalizing most with
  | nil =>
    cases most with
    | zero => rfl
    | succ most => simp [readMore, separated, hstop]
  | cons x xs ih =>
    cases most with
    | zero => cases hmost
    | succ most =>
      have hx := hread x List.mem_cons_self _ (ends_separated hseparator hrest text xs)
      have hxs := ih (Nat.le_of_succ_le_succ hmost) fun y hy => hread y (List.mem_cons_of_mem _ hy)
      rw [separated_cons, List.append_assoc, List.append_assoc, readMore, skip?_append]
      simp [hx, hxs]

/-- A list is read back from the texts of its items with the separator between them. -/
theorem readList_intercalate (separator : String) (rest : List Char)
    (hne : separator.toList ≠ []) (hread : ∀ x ∈ xs, IsRead read text Ends x)
    (hseparator : ∀ cs, Ends (separator.toList ++ cs)) (hrest : Ends rest)
    (hstop : skip? separator rest = none) (hnone : xs = [] → read rest = none) :
    readList read separator (separator.toList.intercalate (xs.map text) ++ rest) =
      some (xs, rest) := by
  cases xs with
  | nil => simp [readList, hnone]
  | cons x xs =>
    have hmost : xs.length ≤ (separated separator text xs ++ rest).length := by
      have := length_le_length_separated hne text xs
      rw [List.length_append]
      omega
    have hx := hread x List.mem_cons_self _ (ends_separated hseparator hrest text xs)
    have hxs := readMore_separated hmost (fun y hy => hread y (List.mem_cons_of_mem _ hy))
      hseparator hrest hstop
    rw [intercalate_cons_eq_separated, List.append_assoc]
    simp only [readList]
    rw [hx]
    dsimp only
    rw [hxs]
    rfl

/-- Items without a separator are read back where each ends in front of any other. -/
theorem readAll_flatMap {most : Nat} (hmost : xs.length ≤ most)
    (hread : ∀ x ∈ xs, IsRead read text Ends x) (hne : ∀ x ∈ xs, text x ≠ [])
    (hitem : ∀ x cs, Ends (text x ++ cs)) (hnil : Ends []) :
    readAll read most (xs.flatMap text) = some xs := by
  induction xs generalizing most with
  | nil => cases most <;> rfl
  | cons x xs ih =>
    cases most with
    | zero => cases hmost
    | succ most =>
      have hrest : Ends (xs.flatMap text) := by
        cases xs with
        | nil => exact hnil
        | cons y ys => exact hitem y _
      have hx := hread x List.mem_cons_self _ hrest
      have hxs := ih (Nat.le_of_succ_le_succ hmost)
        (fun y hy => hread y (List.mem_cons_of_mem _ hy))
        (fun y hy => hne y (List.mem_cons_of_mem _ hy))
      rw [List.flatMap_cons, readAll, if_neg (by simp [hne x List.mem_cons_self])]
      simp [hx, hxs]

end items

/-! ## Names -/

/-- Reads names in quotes, with commas between them. -/
def readNames : Reader (List String) := readList readQuotedName ", "

theorem readQuotedName_eq_none {cs : List Char} (h : cs.head? ≠ some '"') :
    readQuotedName cs = none := by
  unfold readQuotedName
  split
  · exact absurd rfl h
  · rfl

theorem readNames_nameList (names : List String) (rest : List Char)
    (hquote : rest.head? ≠ some '"') (hstop : skip? ", " rest = none) :
    readNames ((nameList names).toList ++ rest) = some (names, rest) := by
  rw [nameList, String.toList_intercalate, List.map_map]
  have hread : ∀ name ∈ names, IsRead readQuotedName (String.toList ∘ quoteName)
      (fun cs => cs.head? ≠ some '"') name := fun name _ _ h => readQuotedName_quoteName name h
  exact readList_intercalate ", " rest (by decide) hread (by simp) hquote hstop
    fun _ => readQuotedName_eq_none hquote

end Text

open Text ObjectName

theorem ObjectName.quoted_written (o : ObjectName) : o.written.quoted = o.quoted := by
  obtain ⟨schema, name⟩ := o
  cases schema with
  | none => rfl
  | some s => by_cases hs : s = "" <;> simp [written, quoted, qualifiedName, Option.filter, hs]

/-- A quoted name is read back with its schema, and a list of names item by item, so two objects
or two lists are written alike only where they are the same up to an empty schema. -/
theorem quoted_names_decode_uniquely :
    (∀ (o : ObjectName) (rest : String), Ends rest.toList →
      read? (o.quoted ++ rest).toList = some (o.written, rest.toList)) ∧
    (∀ names, readNames (nameList names).toList = some (names, [])) ∧
    (∀ o o' : ObjectName, o.quoted = o'.quoted ↔ o.written = o'.written) ∧
    ∀ names names', nameList names = nameList names' → names = names' := by
  have hobject : ∀ (o : ObjectName) (rest : String), Ends rest.toList →
      read? (o.quoted ++ rest).toList = some (o.written, rest.toList) := by
    intro o rest h
    rw [String.toList_append]
    exact read?_quoted o h
  have hnames : ∀ names, readNames (nameList names).toList = some (names, []) := by
    intro names
    rw [← List.append_nil (nameList names).toList]
    exact readNames_nameList names [] (by simp) rfl
  refine ⟨hobject, hnames, fun o o' => ⟨fun h => ?_, fun h => ?_⟩, fun names names' h => ?_⟩
  · have hread := hobject o "" ends_nil
    rw [h, hobject o' "" ends_nil] at hread
    exact (congrArg Prod.fst (Option.some.inj hread)).symm
  · rw [← quoted_written o, ← quoted_written o', h]
  · have hread := hnames names
    rw [h, hnames names'] at hread
    exact (congrArg Prod.fst (Option.some.inj hread)).symm

/-- A name with the text of the separators in it is read as one name, not as a schema and a
name. -/
theorem dotted_name_is_read_as_one :
    let dotted : ObjectName := ⟨none, "a\".\"b"⟩
    let qualified : ObjectName := ⟨some "a", "b"⟩
    Ends " (".toList ∧ read? (dotted.quoted ++ " (").toList = some (dotted, [' ', '(']) ∧
      read? (qualified.quoted ++ " (").toList = some (qualified, [' ', '(']) :=
  ⟨ends_cons (by decide) (by decide) _,
    quoted_names_decode_uniquely.1 _ " (" (ends_cons (by decide) (by decide) _),
    quoted_names_decode_uniquely.1 _ " (" (ends_cons (by decide) (by decide) _)⟩

end ColumnStore
