-- The text of a path into a JSON column. A text is read exactly where each of
-- its parts between the dots is a key with bracket groups behind it, as the
-- segments that it spells, and the text that is written for a path is read as it.
import ColumnStore.Proofs.Outcome
import ColumnStore.Proofs.Text.Integer
import ColumnStore.Query.JsonPath

namespace ColumnStore

open Text

namespace JsonPath

/-! ## The grammar -/

/-- Bracket groups behind one another, in each a word that may have blanks around it. -/
inductive SpellsIndices : List JsonSegment → List Char → Prop
  | nil : SpellsIndices [] []
  | cons {i : Int64} {word : List Char} (hword : SpellsInt64 i (trim word))
      {indices : List JsonSegment} {cs : List Char} (h : SpellsIndices indices cs) :
      SpellsIndices (.index i :: indices) ('[' :: (word ++ ']' :: cs))

/-- A key that is not empty and has no opening bracket, and the groups behind it. -/
inductive SpellsPart : List JsonSegment → List Char → Prop
  | mk {key : List Char} (hne : key ≠ []) (hkey : '[' ∉ key)
      {indices : List JsonSegment} {cs : List Char} (h : SpellsIndices indices cs) :
      SpellsPart (.key (.ofList key) :: indices) (key ++ cs)

/-- The parts between the dots spell the path, one behind the other. -/
def Spells (path : List JsonSegment) (cs : List Char) : Prop :=
  ∃ pieces, List.Forall₂ SpellsPart pieces (cs.splitOn '.') ∧ pieces.flatten = path

/-- Behind a bracket group another one begins, or nothing is left. -/
def EndsGroup (cs : List Char) : Prop := ∀ c, cs.head? = some c → c = '['

theorem SpellsIndices.endsGroup {indices : List JsonSegment} {cs : List Char}
    (h : SpellsIndices indices cs) : EndsGroup cs := by
  cases h with
  | nil => exact nofun
  | cons => exact fun c hc => (Option.some.inj hc).symm

/-- The word of a bracket group ends at the first closing bracket. -/
theorem not_mem_of_spellsInt64 {i : Int64} {word : List Char} (h : SpellsInt64 i (trim word)) :
    ']' ∉ word := by
  intro hmem
  have hkept : ']' ∈ trim word := by
    have : ']' ∈ word.filter (!isBlank ·) := List.mem_filter.mpr ⟨hmem, rfl⟩
    rw [← filter_trim] at this
    exact (List.mem_filter.mp this).1
  have hdigits : ∀ cs, IsNumeral cs → ']' ∉ cs := by
    intro cs hcs hc
    have := hcs.2 _ hc
    cases this
  generalize trim word = cs at h hkept
  cases h with
  | unsigned h => exact hdigits _ h hkept
  | plus h | minus h =>
    rcases List.mem_cons.mp hkept with heq | hmem
    · cases heq
    · exact hdigits _ h hmem

/-! ## Reading -/

theorem parts_eq_splitOn (cs : List Char) : parts cs = cs.splitOn '.' := by
  induction cs with
  | nil => rfl
  | cons c cs ih =>
    rw [parts, ih, List.splitOn_cons_eq_if_modifyHead]
    by_cases hc : c = '.'
    · simp [hc]
    · cases hparts : cs.splitOn '.' with
      | nil => exact absurd hparts (List.splitOn_ne_nil _ _)
      | cons p ps => simp [hc]

theorem endsGroup_iff {cs : List Char} :
    (cs.isEmpty || cs.head? = some '[') = true ↔ EndsGroup cs := by
  cases cs <;> simp [EndsGroup]

theorem readIndices_cons {i : Int64} {word : List Char} (hword : SpellsInt64 i (trim word))
    {cs : List Char} (hcs : EndsGroup cs) (c : Char) :
    readIndices (c :: (word ++ ']' :: cs)) = (.index i :: ·) <$> readIndices cs := by
  have hstop : ∀ x, (']' :: cs).head? = some x → x = ']' := fun _ hx => (Option.some.inj hx).symm
  obtain ⟨hfront, hbehind⟩ := span_ne (not_mem_of_spellsInt64 hword) hstop
  rw [readIndices]
  split
  · rename_i hnone
    rw [hbehind] at hnone
    cases hnone
  · rename_i hrest
    rw [hbehind] at hrest
    cases hrest
    rw [hfront, readInt64_eq_ok_iff.mpr hword]
    dsimp only
    rw [if_pos (endsGroup_iff.mpr hcs)]

/-- The groups are read exactly where they spell indices, if a bracket opens the first of them. -/
theorem readIndices_eq_ok_iff {cs : List Char} {indices : List JsonSegment} (hcs : EndsGroup cs) :
    readIndices cs = .ok indices ↔ SpellsIndices indices cs := by
  constructor
  · intro h
    fun_induction readIndices cs generalizing indices with
    | case1 =>
      cases h
      exact .nil
    | case2 | case3 | case5 => cases h
    | case4 c cs closing rest hclosing i hword hnext ih =>
      cases hcs c rfl
      obtain ⟨more, hmore, rfl⟩ := Outcome.map_eq_ok.mp h
      have hstop : closing = ']' := by
        have := List.head?_dropWhile_not (fun c => decide (c ≠ ']')) cs
        rw [hclosing] at this
        simpa using this
      subst hstop
      have htext : cs = cs.takeWhile (fun c => decide (c ≠ ']')) ++ ']' :: rest := by
        rw [← hclosing, List.takeWhile_append_dropWhile]
      rw [htext]
      exact .cons (readInt64_eq_ok_iff.mp hword) (ih (endsGroup_iff.mp hnext) hmore)
  · intro h
    induction h with
    | nil => rw [readIndices]
    | cons hword h ih =>
      rw [readIndices_cons hword h.endsGroup, ih h.endsGroup]
      rfl

/-- What stands in front of the first opening bracket is the key. -/
theorem readPart_eq_ok_iff {cs : List Char} {segments : List JsonSegment} :
    readPart cs = .ok segments ↔ SpellsPart segments cs := by
  constructor
  · intro h
    unfold readPart at h
    dsimp only at h
    split at h
    · cases h
    · rename_i hne
      obtain ⟨indices, hread, rfl⟩ := Outcome.map_eq_ok.mp h
      have hkey : '[' ∉ cs.takeWhile (· ≠ '[') := by
        intro hmem
        simpa using List.mem_takeWhile_imp hmem
      have hgroups : EndsGroup (cs.dropWhile (· ≠ '[')) := by
        intro c hc
        have := List.head?_dropWhile_not (fun c => decide (c ≠ '[')) cs
        rw [hc] at this
        simpa using this
      have hpart := SpellsPart.mk (by simpa using hne) hkey
        ((readIndices_eq_ok_iff hgroups).mp hread)
      rwa [List.takeWhile_append_dropWhile] at hpart
  · intro h
    obtain @⟨key, hne, hkey, indices, groups, hindices⟩ := h
    obtain ⟨hfront, hbehind⟩ := span_ne hkey hindices.endsGroup
    unfold readPart
    rw [hfront, hbehind, (readIndices_eq_ok_iff hindices.endsGroup).mpr hindices]
    cases key with
    | nil => exact absurd rfl hne
    | cons => rfl

theorem readParts_eq_ok_iff {ps : List (List Char)} {path : List JsonSegment} :
    readParts ps = .ok path ↔
      ∃ pieces, List.Forall₂ SpellsPart pieces ps ∧ pieces.flatten = path := by
  induction ps generalizing path with
  | nil =>
    simp only [readParts, Except.ok.injEq, List.forall₂_nil_right_iff, exists_eq_left,
      List.flatten_nil]
  | cons p ps ih =>
    rw [readParts, Outcome.bind_eq_ok]
    constructor
    · rintro ⟨first, hfirst, h⟩
      obtain ⟨rest, hrest, rfl⟩ := Outcome.bind_pure_eq_ok.mp h
      obtain ⟨pieces, hpieces, rfl⟩ := ih.mp hrest
      exact ⟨first :: pieces, .cons (readPart_eq_ok_iff.mp hfirst) hpieces, rfl⟩
    · rintro ⟨_, hpieces, rfl⟩
      obtain ⟨first, pieces, hfirst, hrest, rfl⟩ := List.forall₂_cons_right_iff.mp hpieces
      exact ⟨first, readPart_eq_ok_iff.mpr hfirst,
        Outcome.bind_pure_eq_ok.mpr ⟨pieces.flatten, ih.mpr ⟨pieces, hrest, rfl⟩, rfl⟩⟩

/-- A text is read exactly where it spells a path. -/
theorem read_eq_ok_iff {text : String} {path : List JsonSegment} :
    read text = .ok path ↔ Spells path text.toList := by
  rw [Spells, ← parts_eq_splitOn, ← readParts_eq_ok_iff, read]
  cases readParts (parts text.toList) <;> simp [Except.mapError]

/-- A text is accepted exactly where each of its parts spells something. -/
theorem exists_spells_iff {cs : List Char} : (∃ path, Spells path cs) ↔
    ∀ part ∈ cs.splitOn '.', ∃ segments, SpellsPart segments part := by
  rw [← Outcome.exists_forall₂_iff]
  constructor
  · rintro ⟨_, pieces, hpieces, _⟩
    exact ⟨pieces, hpieces.flip⟩
  · rintro ⟨pieces, hpieces⟩
    exact ⟨_, pieces, hpieces.flip, rfl⟩

/-! ## Writing -/

/-- How a segment stands behind others: a key behind a dot, an index in brackets. -/
def segmentText : JsonSegment → List Char
  | .key name => '.' :: name.toList
  | .index i => '[' :: ((toString i.toInt).toList ++ [']'])

/-- The text of a path, whose first key has no dot in front of it. -/
def text : List JsonSegment → String
  | .key name :: path => .ofList (name.toList ++ path.flatMap segmentText)
  | path => .ofList (path.flatMap segmentText)

/-- The name can stand between dots and in front of brackets. -/
structure IsKey (name : String) : Prop where
  nonempty : name ≠ ""
  dot : '.' ∉ name.toList
  bracket : '[' ∉ name.toList

/-- A key comes first, and every key can be written as it is. -/
structure IsPlain (path : List JsonSegment) : Prop where
  first : ∃ name rest, path = .key name :: rest
  keys : ∀ name, .key name ∈ path → IsKey name

theorem spellsInt64_trim_toString (i : Int64) :
    SpellsInt64 i (trim (toString i.toInt).toList) := by
  rw [trim_toString_int]
  exact spellsInt64_toString i

theorem dot_not_mem_index (i : Int64) : '.' ∉ segmentText (.index i) := by
  have hword : '.' ∉ (toString i.toInt).toList := by
    intro hmem
    rcases mem_toString_int hmem with hc | hc <;> cases hc
  simpa [segmentText] using hword

theorem IsKey.spellsPart {name : String} (h : IsKey name) :
    SpellsPart [.key name] name.toList := by
  have hpart := SpellsPart.mk (by simpa using h.nonempty) h.bracket .nil
  rwa [String.ofList_toList, List.append_nil] at hpart

theorem SpellsIndices.snoc {indices : List JsonSegment} {cs : List Char}
    (h : SpellsIndices indices cs) (i : Int64) :
    SpellsIndices (indices ++ [.index i]) (cs ++ segmentText (.index i)) := by
  induction h with
  | nil => exact .cons (spellsInt64_trim_toString i) .nil
  | cons hword _ ih =>
    rw [List.cons_append, List.cons_append, List.append_assoc, List.cons_append]
    exact .cons hword ih

theorem SpellsPart.snoc {segments : List JsonSegment} {cs : List Char}
    (h : SpellsPart segments cs) (i : Int64) :
    SpellsPart (segments ++ [.index i]) (cs ++ segmentText (.index i)) := by
  obtain ⟨hne, hkey, hindices⟩ := h
  rw [List.cons_append, List.append_assoc]
  exact .mk hne hkey (hindices.snoc i)

theorem SpellsPart.last {segments : List JsonSegment} {cs : List Char} (h : SpellsPart segments cs)
    (hdot : '.' ∉ cs) : Spells segments cs := by
  refine ⟨[segments], ?_, by simp⟩
  rw [List.splitOn_eq_singleton hdot]
  exact .cons h .nil

theorem SpellsPart.followed {segments path : List JsonSegment} {cs rest : List Char}
    (h : SpellsPart segments cs) (hdot : '.' ∉ cs) (hrest : Spells path rest) :
    Spells (segments ++ path) (cs ++ '.' :: rest) := by
  obtain ⟨pieces, hpieces, rfl⟩ := hrest
  refine ⟨segments :: pieces, ?_, rfl⟩
  rw [List.splitOn_append_cons_self_of_not_mem hdot]
  exact .cons h hpieces

/-- The induction is on the segments behind a part that is still open: an index goes on with it, a
key begins the next one. -/
theorem SpellsPart.spells_append {segments path : List JsonSegment} {cs : List Char}
    (h : SpellsPart segments cs) (hdot : '.' ∉ cs) (hkeys : ∀ name, .key name ∈ path → IsKey name) :
    Spells (segments ++ path) (cs ++ path.flatMap segmentText) := by
  induction path generalizing segments cs with
  | nil =>
    rw [List.append_nil, List.flatMap_nil, List.append_nil]
    exact h.last hdot
  | cons segment path ih =>
    have hpath : ∀ name, .key name ∈ path → IsKey name :=
      fun name hname => hkeys name (List.mem_cons_of_mem _ hname)
    rw [List.flatMap_cons]
    cases segment with
    | key name =>
      have hname := hkeys name List.mem_cons_self
      exact h.followed hdot (ih hname.spellsPart hname.dot hpath)
    | index i =>
      have hopen := ih (h.snoc i) (by simp [hdot, dot_not_mem_index]) hpath
      rwa [List.append_assoc, List.append_assoc, List.singleton_append] at hopen

/-! ## Laws -/

/-- A text is accepted exactly where each part between its dots is a key and bracket groups, it is
read as what these parts spell, and a path of plain keys is read back from its text. -/
theorem path_is_read_by_its_grammar :
    (∀ text : String, (∃ path, read text = .ok path) ↔
      ∀ part ∈ text.toList.splitOn '.', ∃ segments, SpellsPart segments part) ∧
    (∀ (text : String) path, read text = .ok path ↔ Spells path text.toList) ∧
    ∀ path, IsPlain path → read (text path) = .ok path := by
  refine ⟨fun text => ?_, fun text path => read_eq_ok_iff, fun path h => ?_⟩
  · simp only [read_eq_ok_iff]
    exact exists_spells_iff
  · obtain ⟨name, rest, rfl⟩ := h.first
    have hname := h.keys name List.mem_cons_self
    rw [read_eq_ok_iff, text, String.toList_ofList]
    exact hname.spellsPart.spells_append hname.dot
      fun key hkey => h.keys key (List.mem_cons_of_mem _ hkey)

/-- Blanks and closing brackets are a part of a key, and indices go to both ends of their range. -/
theorem bracketed_key_is_read_back :
    let path : List JsonSegment :=
      [.key "a]", .index (-1), .index 9223372036854775807, .key " b", .index (-9223372036854775808)]
    IsPlain path ∧ text path = "a][-1][9223372036854775807]. b[-9223372036854775808]" ∧
      read "a][-1][9223372036854775807]. b[-9223372036854775808]" = .ok path := by
  intro path
  have hplain : IsPlain path := by
    refine ⟨⟨"a]", _, rfl⟩, fun name hname => ?_⟩
    simp only [path, List.mem_cons, JsonSegment.key.injEq, reduceCtorEq, List.not_mem_nil,
      or_false, false_or] at hname
    rcases hname with rfl | rfl <;> exact ⟨by decide, by decide, by decide⟩
  have htext : text path = "a][-1][9223372036854775807]. b[-9223372036854775808]" := by decide
  exact ⟨hplain, htext, htext ▸ path_is_read_by_its_grammar.2.2 path hplain⟩

end JsonPath

end ColumnStore
