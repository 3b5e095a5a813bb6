-- Comments in SQL text: two minus signs behind one another outside quotes
-- hide the rest of the line. Most texts hold no minus sign outside quotes, so
-- what matters is how they are put together.
import ColumnStore.Proofs.Text.Names

namespace ColumnStore.Text

/-! ## Where a text stands -/

/-- Outside quotes, perhaps right behind a minus sign; in a string literal, perhaps behind a
backslash; or in a quoted name. -/
inductive Zone where
  | bare (minus : Bool)
  | literal
  | escaped
  | name
  deriving DecidableEq, Repr

def Zone.next (z : Zone) (c : Char) : Zone :=
  match z with
  | .bare _ => if c = '\'' then .literal else if c = '"' then .name else .bare (c = '-')
  | .literal => if c = '\\' then .escaped else if c = '\'' then .bare false else .literal
  | .escaped => .literal
  | .name => if c = '"' then .bare false else .name

/-- The zone behind the text. -/
def zoneAfter (z : Zone) (cs : List Char) : Zone := cs.foldl Zone.next z

def opensComment (z : Zone) : List Char → Bool
  | [] => false
  | c :: cs => (z = .bare true && c = '-') || opensComment (z.next c) cs

/-- Whether two minus signs stand behind one another outside quotes. -/
def hasComment (sql : String) : Bool := opensComment (.bare false) sql.toList

theorem zoneAfter_append (z : Zone) (xs ys : List Char) :
    zoneAfter z (xs ++ ys) = zoneAfter (zoneAfter z xs) ys := List.foldl_append

theorem opensComment_append (z : Zone) (xs ys : List Char) :
    opensComment z (xs ++ ys) = (opensComment z xs || opensComment (zoneAfter z xs) ys) := by
  induction xs generalizing z with
  | nil => simp [opensComment, zoneAfter]
  | cons x xs ih => simp [opensComment, zoneAfter, ih, Bool.or_assoc]

/-! ## Passing over a text -/

/-- The text leads from outside quotes to outside quotes and ends in no minus sign; `comment`
tells whether there is a comment on the way. -/
structure Passes (cs : List Char) (comment : Bool) : Prop where
  zone : zoneAfter (.bare false) cs = .bare false
  comment_eq : opensComment (.bare false) cs = comment

/-- Whether the text begins with a minus sign. -/
def leads (cs : List Char) : Bool := cs.head? = some '-'

/-- What can stand behind a minus sign: some text that is passed over. -/
structure Reads (cs : List Char) (lead comment : Bool) : Prop extends Passes cs comment where
  nonempty : cs ≠ []
  leads_eq : leads cs = lead

/-- A text without a comment, such as a number with its sign. -/
abbrev Quiet (cs : List Char) : Prop := Reads cs (leads cs) false

/-- A text without a comment that does not begin with a minus sign. -/
abbrev Settled (cs : List Char) : Prop := Reads cs false false

variable {xs ys : List Char} {lead b c : Bool}

theorem Passes.nil : Passes [] false := ⟨rfl, rfl⟩

theorem Passes.append (hx : Passes xs b) (hy : Passes ys c) : Passes (xs ++ ys) (b || c) := by
  constructor
  · rw [zoneAfter_append, hx.zone, hy.zone]
  · rw [opensComment_append, hx.zone, hx.comment_eq, hy.comment_eq]

theorem Reads.append (hx : Reads xs lead b) (hy : Passes ys c) :
    Reads (xs ++ ys) lead (b || c) := by
  refine ⟨hx.toPasses.append hy, by simp [hx.nonempty], ?_⟩
  rw [← hx.leads_eq]
  cases xs with
  | nil => exact absurd rfl hx.nonempty
  | cons x xs => rfl

theorem Reads.quiet (h : Reads xs lead c) : Reads xs (leads xs) c := by
  rw [h.leads_eq]
  exact h

/-- Behind a minus sign, another one begins a comment. -/
theorem Reads.minus (h : Reads xs lead c) : Reads ('-' :: xs) true (lead || c) := by
  obtain ⟨⟨hzone, hcomment⟩, hne, rfl⟩ := h
  cases xs with
  | nil => exact absurd rfl hne
  | cons x xs =>
    have hnext : Zone.next (.bare true) x = Zone.next (.bare false) x := rfl
    simp only [zoneAfter, List.foldl_cons, opensComment] at hzone hcomment
    refine ⟨⟨?_, ?_⟩, List.cons_ne_nil _ _, rfl⟩
    · simpa [zoneAfter, Zone.next] using hzone
    · simpa [opensComment, Zone.next, leads] using congrArg (decide (x = '-') || ·) hcomment

/-- Texts behind one another, with a comma and a blank between them. -/
theorem passes_intercalate {α : Type} {f : α → List Char} {comment : α → Bool} {l : List α}
    (h : ∀ x ∈ l, Passes (f x) (comment x)) :
    Passes ([',', ' '].intercalate (l.map f)) (l.any comment) := by
  induction l with
  | nil => exact Passes.nil
  | cons x l ih =>
    have hx := h x List.mem_cons_self
    have hl := ih fun y hy => h y (List.mem_cons_of_mem _ hy)
    cases l with
    | nil => simpa using hx
    | cons y l =>
      have hseparator : Passes [',', ' '] false := ⟨by decide, by decide⟩
      rw [List.map_cons, List.map_cons, List.intercalate_cons_cons, List.any_cons]
      have happend := (hx.append hseparator).append hl
      rwa [Bool.or_false] at happend

/-! ## Unmarked texts -/

/-- Neither a minus sign nor a quote. -/
def isUnmarked (c : Char) : Bool := c ≠ '-' && c ≠ '\'' && c ≠ '"'

theorem passes_unmarked (h : xs.all isUnmarked = true) : Passes xs false := by
  induction xs with
  | nil => exact Passes.nil
  | cons x xs ih =>
    rw [List.all_cons, Bool.and_eq_true] at h
    obtain ⟨hx, hxs⟩ := h
    have hrest := ih hxs
    simp only [isUnmarked, Bool.and_eq_true, decide_eq_true_eq] at hx
    have hnext : Zone.next (.bare false) x = .bare false := by simp [Zone.next, hx]
    constructor
    · rw [zoneAfter, List.foldl_cons, hnext]
      exact hrest.zone
    · simpa [opensComment, hnext] using hrest.comment_eq

theorem settled_unmarked (hne : xs ≠ []) (h : xs.all isUnmarked = true) : Settled xs := by
  refine ⟨passes_unmarked h, hne, ?_⟩
  cases xs with
  | nil => rfl
  | cons x xs =>
    have hx := List.all_eq_true.mp h x List.mem_cons_self
    simp only [isUnmarked, Bool.and_eq_true, decide_eq_true_eq] at hx
    simp [leads, hx]

/-- Between brackets of any kind a text begins with no minus sign. -/
theorem Passes.between (opening closing : List Char) (h : Passes xs c) (hne : opening ≠ [])
    (hopening : opening.all isUnmarked = true) (hclosing : closing.all isUnmarked = true) :
    Reads (opening ++ (xs ++ closing)) false c := by
  have hall := (settled_unmarked hne hopening).append (h.append (passes_unmarked hclosing))
  rwa [Bool.false_or, Bool.or_false] at hall

theorem isUnmarked_of_isNameChar {x : Char} (h : isNameChar x = true) : isUnmarked x = true := by
  have hne : ∀ y, isNameChar y = false → x ≠ y := by
    rintro y hy rfl
    rw [h] at hy
    cases hy
  simp [isUnmarked, hne '-' rfl, hne '\'' rfl, hne '"' rfl]

/-! ## Quoted texts -/

/-- A string literal that has been opened is open behind any escaped text. -/
theorem zoneAfter_escaped (s : List Char) :
    zoneAfter .literal (s.flatMap escapeChar) = .literal ∧
      opensComment .literal (s.flatMap escapeChar) = false := by
  induction s with
  | nil => exact ⟨rfl, rfl⟩
  | cons c s ih =>
    have hchar : zoneAfter .literal (escapeChar c) = .literal ∧
        opensComment .literal (escapeChar c) = false := by
      unfold escapeChar
      iterate 6
        split
        · exact ⟨rfl, rfl⟩
      rename_i hslash hquote _ _ _ _
      simp [zoneAfter, opensComment, Zone.next, hslash, hquote]
    rw [List.flatMap_cons, zoneAfter_append, opensComment_append, hchar.1, hchar.2, ih.1, ih.2]
    exact ⟨rfl, rfl⟩

theorem settled_literal (s : String) : Settled (literal s).toList := by
  obtain ⟨hzone, hcomment⟩ := zoneAfter_escaped s.toList
  rw [toList_literal]
  refine ⟨⟨?_, ?_⟩, List.cons_ne_nil _ _, rfl⟩
  · show zoneAfter .literal _ = _
    rw [zoneAfter_append, hzone]
    rfl
  · show opensComment .literal _ = _
    rw [opensComment_append, hzone, hcomment]
    rfl

/-- A quoted name that has been opened is open behind any name with its quotes doubled. -/
theorem zoneAfter_doubleQuotes (cs : List Char) :
    zoneAfter .name (doubleQuotes cs) = .name ∧ opensComment .name (doubleQuotes cs) = false := by
  induction cs with
  | nil => exact ⟨rfl, rfl⟩
  | cons c cs ih =>
    unfold doubleQuotes
    split
    · exact ih
    · rename_i hquote
      have hnext : Zone.next .name c = .name := by simp [Zone.next, hquote]
      rw [zoneAfter, List.foldl_cons, opensComment, hnext, ← zoneAfter]
      exact ih

theorem settled_quoteName (name : String) : Settled (quoteName name).toList := by
  obtain ⟨hzone, hcomment⟩ := zoneAfter_doubleQuotes name.toList
  rw [toList_quoteName]
  refine ⟨⟨?_, ?_⟩, List.cons_ne_nil _ _, rfl⟩
  · show zoneAfter .name _ = _
    rw [zoneAfter_append, hzone]
    rfl
  · show opensComment .name _ = _
    rw [opensComment_append, hzone, hcomment]
    rfl

theorem settled_qualifiedName (schema : Option String) (name : String) :
    Settled (qualifiedName schema name).toList := by
  have hname := settled_quoteName name
  unfold qualifiedName
  split
  · exact hname
  · rename_i table
    split
    · exact hname
    · have hdot : Passes ['.'] false := passes_unmarked (by decide)
      rw [String.toList_append, String.toList_append, List.append_assoc]
      exact (settled_quoteName table).append (hdot.append hname.toPasses)

theorem settled_plainName {name : String} (h : isPlainName name = true) :
    Settled name.toList :=
  settled_unmarked (toList_ne_nil_of_isPlainName h) (List.all_eq_true.mpr fun c hc =>
    isUnmarked_of_isNameChar (isNameChar_of_isPlainName h c hc))

end ColumnStore.Text
