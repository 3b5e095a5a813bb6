-- The note that a migration has in the place of a dictionary from outside the
-- store. It is meant as a comment, of which the store runs nothing. It names
-- the dictionary, and quoting keeps a line break in a name as it is, so the note
-- is a comment exactly where the names stay on its line.
import ColumnStore.Proofs.Migration.ExternalDictionaries

namespace ColumnStore

namespace Text

/-! ## Characters of names -/

theorem mem_doubleQuotes_iff {c : Char} {cs : List Char} : c ∈ doubleQuotes cs ↔ c ∈ cs := by
  induction cs with
  | nil => rfl
  | cons x xs ih =>
    unfold doubleQuotes
    split
    · rename_i hx
      simp [ih, hx]
    · simp [ih]

theorem mem_quoteName_iff {c : Char} (hquote : c ≠ '"') {name : String} :
    c ∈ (quoteName name).toList ↔ c ∈ name.toList := by
  simp [toList_quoteName, mem_doubleQuotes_iff, hquote]

/-- Apart from the marks around and between the names, a qualified name has the characters of its
names and no others. -/
theorem mem_qualifiedName_iff {c : Char} (hquote : c ≠ '"') (hdot : c ≠ '.')
    {schema : Option String} {name : String} :
    c ∈ (qualifiedName schema name).toList ↔
      c ∈ name.toList ∨ ∃ s, schema = some s ∧ c ∈ s.toList := by
  unfold qualifiedName
  cases schema with
  | none => simp [mem_quoteName_iff hquote]
  | some s =>
    by_cases hs : s = ""
    · simp [mem_quoteName_iff hquote, hs]
    · have hempty : s.isEmpty = false := by simpa using hs
      simp [mem_quoteName_iff hquote, hempty, hdot, or_comm]

/-! ## Comments of one line -/

def isLineBreak (c : Char) : Bool := c = '\n' || c = '\r'

def IsOneLine (s : String) : Prop := ∀ c ∈ s.toList, isLineBreak c = false

instance (s : String) : Decidable (IsOneLine s) :=
  List.decidableBAll (isLineBreak · = false) s.toList

/-- The text is a comment to its end: it begins with two minus signs, and no line break ends the
comment before the text does. -/
structure IsCommentLine (s : String) : Prop where
  opened : "--".toList <+: s.toList
  oneLine : IsOneLine s

theorem isOneLine_append {s t : String} : IsOneLine (s ++ t) ↔ IsOneLine s ∧ IsOneLine t := by
  unfold IsOneLine
  rw [String.toList_append, List.forall_mem_append]

theorem isCommentLine_append_iff {s t : String} (hs : IsCommentLine s) :
    IsCommentLine (s ++ t) ↔ IsOneLine t := by
  constructor
  · intro h
    exact (isOneLine_append.mp h.oneLine).2
  · intro ht
    refine ⟨?_, isOneLine_append.mpr ⟨hs.oneLine, ht⟩⟩
    rw [String.toList_append]
    exact hs.opened.trans (List.prefix_append _ _)

theorem isOneLine_qualifiedName {schema : Option String} {name : String} :
    IsOneLine (qualifiedName schema name) ↔
      IsOneLine name ∧ ∀ s, schema = some s → IsOneLine s := by
  have hmem : ∀ c, isLineBreak c = true → (c ∈ (qualifiedName schema name).toList ↔
      c ∈ name.toList ∨ ∃ s, schema = some s ∧ c ∈ s.toList) := by
    intro c hc
    apply mem_qualifiedName_iff <;> rintro rfl <;> cases hc
  have hcontra : ∀ s : String, IsOneLine s ↔ ∀ c, isLineBreak c = true → c ∉ s.toList := by
    intro s
    unfold IsOneLine
    grind
  simp only [hcontra]
  constructor
  · intro h
    refine ⟨fun c hc hname => h c hc ((hmem c hc).mpr (.inl hname)), ?_⟩
    exact fun s hs c hc hschema => h c hc ((hmem c hc).mpr (.inr ⟨s, hs, hschema⟩))
  · rintro ⟨hname, hschema⟩ c hc hquoted
    rcases (hmem c hc).mp hquoted with h | ⟨s, hs, h⟩
    · exact hname c hc h
    · exact hschema s hs c hc h

end Text

open Text

namespace Command

/-- The note in the place of a dictionary, without the terminator behind it. -/
def noteText (object : ObjectName) : String :=
  "-- Dictionary " ++ object.quoted ++ " uses an external source; it is created " ++
    "at application startup so credentials never appear in migrations"

theorem isCommentLine_noteText_iff {object : ObjectName} : IsCommentLine (noteText object) ↔
    IsOneLine object.name ∧ ∀ s, object.schema = some s → IsOneLine s := by
  have hfront : IsCommentLine "-- Dictionary " := ⟨by decide, by decide +kernel⟩
  have hbehind : IsOneLine " uses an external source; it is created " := by decide +kernel
  have hend : IsOneLine "at application startup so credentials never appear in migrations" := by
    decide +kernel
  delta noteText
  rw [String.append_assoc, String.append_assoc, isCommentLine_append_iff hfront,
    isOneLine_append, and_iff_left (isOneLine_append.mpr ⟨hbehind, hend⟩)]
  exact isOneLine_qualifiedName

end Command

namespace Operation

open Command

variable {p : Provider} {m : Model} {object : ObjectName} {e : Entity} {d : Dictionary}

/-! ## The law -/

/-- The creation of a dictionary from outside the store is one command, whatever columns it has:
a note with the terminator behind it. The note is a comment of one line exactly where there is no
line break in the dictionary's name and none in the schema, which is the operation's or else the
entity's. -/
theorem placeholder_is_comment_iff (hentity : m.entity? object.name = some e)
    (hkind : e.kind = .dictionary d) (hd : d.source.isExternal = true) (columns : List Column) :
    ∃ note, (onTable object (.create columns)).statements p m = .ok [p.terminate note] ∧
      (IsCommentLine note ↔ IsOneLine object.name ∧
        ∀ s, object.schema.or e.schema = some s → IsOneLine s) := by
  have htable : e.table = object.name := by
    simpa using List.find?_some hentity
  have hsame : { e with kind := .dictionary d } = e := by rw [← hkind]
  have hcreate : create p m object columns =
      .ok [.externalDictionary ⟨object.schema.or e.schema, object.name⟩] := by
    rw [create_of_external (e := e) (by rw [hentity, hsame]) hd columns, htable]
  refine ⟨noteText ⟨object.schema.or e.schema, object.name⟩, ?_, isCommentLine_noteText_iff⟩
  rw [statements, commands, tableCommands, hcreate]
  rfl

/-- Quotes and semicolons in the name and two minus signs in the schema end no comment. -/
theorem quoted_marks_stay_in_comment :
    let d : Dictionary := {
      keys := [{ name := "Id", type := .uint64 }]
      attributes := [{ name := "Name", type := .string }]
      source := .postgreSql ⟨"crm", none, some "countries"⟩
      layout := .hashed }
    let e : Entity := { table := "a\"; DROP", schema := some "geo", kind := .dictionary d }
    let m : Model := { entities := [e] }
    let create := onTable ⟨some "--", "a\"; DROP"⟩ (.create [])
    m.IsValidated ∧ m.entity? "a\"; DROP" = some e ∧ d.source.isExternal = true ∧
      ∃ note, create.statements {} m = .ok [note ++ ";"] ∧ IsCommentLine note := by
  intro d e m create
  have hvalid : e.validate = .ok () := by
    simp only [e, d]
    rfl
  have hentity : m.entity? "a\"; DROP" = some e := by simp [m, Model.entity?, e]
  obtain ⟨note, hnote, hiff⟩ :=
    @placeholder_is_comment_iff {} m ⟨some "--", "a\"; DROP"⟩ _ _ hentity rfl rfl []
  refine ⟨List.forall_mem_singleton.mpr hvalid, hentity, rfl, note, hnote, hiff.mpr ⟨?_, ?_⟩⟩
  · decide +kernel
  · rintro _ ⟨⟩
    decide +kernel

/-- A line break in the name of a dictionary ends the comment, and a statement in the name is run:
the table is dropped, and the rest is a comment again. -/
theorem line_break_in_name_ends_comment :
    let d : Dictionary := {
      keys := [{ name := "Id", type := .uint64 }]
      attributes := [{ name := "Name", type := .string }]
      source := .postgreSql ⟨"crm", none, some "countries"⟩
      layout := .hashed }
    let e : Entity := { table := "Geo\nDROP TABLE Users; --", kind := .dictionary d }
    let m : Model := { entities := [e] }
    let note := "-- Dictionary \"Geo\nDROP TABLE Users; --\" uses an external source; it is " ++
      "created at application startup so credentials never appear in migrations"
    m.IsValidated ∧ d.source.isExternal = true ∧
      (onTable ⟨none, "Geo\nDROP TABLE Users; --"⟩ (.create [])).statements {} m =
        .ok [note ++ ";"] ∧
      ¬IsCommentLine note := by
  intro d e m note
  have hvalid : e.validate = .ok () := by
    simp only [e, d]
    rfl
  have hwritten : noteText ⟨none, "Geo\nDROP TABLE Users; --"⟩ = note := by decide +kernel
  refine ⟨List.forall_mem_singleton.mpr hvalid, rfl, ?_, fun h => ?_⟩
  · rw [← hwritten]
    rfl
  · rw [← hwritten] at h
    have hname := (isCommentLine_noteText_iff.mp h).1 '\n' (by decide)
    cases hname

end Operation

end ColumnStore
