-- What a table declares is read back from the lines of its clauses. Engines
-- outside of the MergeTree family write fewer lines and a primary key may be
-- left out, so it is the validation that keeps every declared option.
import ColumnStore.Proofs.Table.EngineText
import Mathlib.Data.List.TakeWhile

namespace ColumnStore

open Text

/-! ## Numbers in settings -/

namespace Number

/-- A character that stands in no number, not even in the words for those that are none. -/
structure IsForeign (x : Char) : Prop where
  digit : x.isDigit = false
  mark : x ∉ ['+', '-', '.', 'e', 'E']
  letter : x.toLower ∉ "nafity".toList

variable {x : Char} {cs : List Char}

theorem eq_append_of_splitSign (cs : List Char) :
    ∃ sign, (∀ c ∈ sign, c = '+' ∨ c = '-') ∧ cs = sign ++ (splitSign cs).2 := by
  unfold splitSign
  split
  · exact ⟨['-'], by simp, rfl⟩
  · exact ⟨['+'], by simp, rfl⟩
  · exact ⟨[], nofun, rfl⟩

theorem IsForeign.not_mem_of_splitSign (hx : IsForeign x) (h : x ∉ (splitSign cs).2) :
    x ∉ cs := by
  obtain ⟨sign, hall, hcs⟩ := eq_append_of_splitSign cs
  rw [hcs, List.mem_append]
  rintro (hmem | hmem)
  · rcases hall x hmem with rfl | rfl <;> exact hx.mark (by decide)
  · exact h hmem

theorem IsForeign.not_mem_of_all_isDigit (hx : IsForeign x) (h : cs.all Char.isDigit = true) :
    x ∉ cs := by
  intro hmem
  have hdigit := hx.digit
  rw [List.all_eq_true.mp h x hmem] at hdigit
  cases hdigit

theorem IsForeign.not_mem_of_dropWhile (hx : IsForeign x) (h : x ∉ cs.dropWhile Char.isDigit) :
    x ∉ cs := by
  rw [← List.takeWhile_append_dropWhile (p := Char.isDigit) (l := cs), List.mem_append, not_or]
  exact ⟨hx.not_mem_of_all_isDigit (List.all_eq_true.mpr fun _ => List.mem_takeWhile_imp), h⟩

theorem IsForeign.not_mem_of_readExponent (hx : IsForeign x) {n : Int}
    (h : readExponent cs = some n) : x ∉ cs := by
  unfold readExponent at h
  split at h
  · exact List.not_mem_nil
  · rename_i c rest
    split at h
    · rename_i hc
      dsimp only at h
      split at h
      · cases h
      · rename_i hdigits
        rw [Bool.or_eq_true, not_or, Bool.not_eq_true', Bool.not_eq_false] at hdigits
        have hfirst : x ≠ c := by
          rintro rfl
          rcases Bool.or_eq_true_iff.mp hc with hc | hc <;> rw [of_decide_eq_true hc] at hx <;>
            exact hx.mark (by decide)
        rw [List.mem_cons, not_or]
        exact ⟨hfirst, hx.not_mem_of_splitSign (hx.not_mem_of_all_isDigit hdigits.2)⟩
    · cases h

theorem IsForeign.not_mem_of_readUnsigned (hx : IsForeign x) {negative : Bool} {r : FloatReading}
    (h : readUnsigned negative cs = some r) : x ∉ cs := by
  apply hx.not_mem_of_dropWhile
  unfold readUnsigned at h
  dsimp only at h
  split at h
  · rename_i fraction hfraction
    split at h
    · cases h
    · obtain ⟨n, hn, _⟩ := Option.map_eq_some_iff.mp h
      have hpoint : x ≠ '.' := by
        rintro rfl
        exact hx.mark (by decide)
      rw [hfraction, List.mem_cons, not_or]
      exact ⟨hpoint, hx.not_mem_of_dropWhile (hx.not_mem_of_readExponent hn)⟩
  · split at h
    · cases h
    · obtain ⟨n, hn, _⟩ := Option.map_eq_some_iff.mp h
      exact hx.not_mem_of_readExponent hn

theorem IsForeign.not_mem_of_readFloat? (hx : IsForeign x) {r : FloatReading}
    (h : readFloat? cs = some r) : x ∉ cs := by
  apply hx.not_mem_of_splitSign
  have hword : ∀ word : String, word.toList.all ("nafity".toList.contains ·) = true →
      String.ofList ((splitSign cs).2.map Char.toLower) = word → x ∉ (splitSign cs).2 := by
    rintro word hword rfl hmem
    rw [String.toList_ofList] at hword
    have := List.all_eq_true.mp hword _ (List.mem_map_of_mem hmem)
    exact hx.letter (List.contains_iff_mem.mp this)
  unfold readFloat? at h
  dsimp only at h
  split at h
  · exact hword "nan" (by decide) ‹_›
  · split at h
    · rename_i hinf
      rcases Bool.or_eq_true_iff.mp hinf with hinf | hinf
      · exact hword "inf" (by decide) (of_decide_eq_true hinf)
      · exact hword "infinity" (by decide) (of_decide_eq_true hinf)
    · exact hx.not_mem_of_readUnsigned h

end Number

/-! ## Settings -/

/-- Reads a setting's value: a literal, or what stands in front of the next comma. -/
def readSettingValue : Reader String := fun cs =>
  match readQuotedLiteral cs with
  | some (s, rest) => some (literal s, rest)
  | none => some (.ofList (cs.takeWhile (· ≠ ',')), cs.dropWhile (· ≠ ','))

/-- Reads a setting: its plain name, an equals sign and its value. -/
def readSetting : Reader (String × String) := fun cs => do
  let rest ← skip? " = " (cs.dropWhile isNameChar)
  let (value, rest) ← readSettingValue rest
  return ((.ofList (cs.takeWhile isNameChar), value), rest)

/-- Behind a setting stand another one or nothing. -/
def EndsSetting (rest : List Char) : Prop := ∀ c, rest.head? = some c → c = ','

/-- A value is written as a literal, or without commas and quotes. -/
theorem settingValue_cases (value : String) : (∃ s, settingValue value = literal s) ∨
    ',' ∉ (settingValue value).toList ∧ '\'' ∉ (settingValue value).toList := by
  unfold settingValue
  dsimp only
  split
  · rename_i hplain
    right
    rw [Bool.or_eq_true, Bool.or_eq_true] at hplain
    rcases hplain with (hnumber | htrue) | hfalse
    · obtain ⟨r, hr⟩ := Option.isSome_iff_exists.mp hnumber
      have hcomma : Number.IsForeign ',' := ⟨rfl, by decide, by decide⟩
      have hquote : Number.IsForeign '\'' := ⟨rfl, by decide, by decide⟩
      exact ⟨hcomma.not_mem_of_readFloat? hr, hquote.not_mem_of_readFloat? hr⟩
    · rw [of_decide_eq_true htrue]
      decide
    · rw [of_decide_eq_true hfalse]
      decide
  · left
    split
    · split
      · exact ⟨_, rfl⟩
      · exact ⟨_, rfl⟩
    · exact ⟨_, rfl⟩

/-- A value without commas and quotes ends where its setting does. -/
theorem span_setting {word rest : List Char} (hcomma : ',' ∉ word) (hquote : '\'' ∉ word)
    (h : EndsSetting rest) : readQuotedLiteral (word ++ rest) = none ∧
      (word ++ rest).takeWhile (· ≠ ',') = word ∧ (word ++ rest).dropWhile (· ≠ ',') = rest := by
  refine ⟨readQuotedLiteral_eq_none fun hhead => ?_, span_ne hcomma h⟩
  rw [List.head?_append] at hhead
  rcases Option.or_eq_some_iff.mp hhead with hhead | ⟨_, hhead⟩
  · exact hquote (List.mem_of_head? hhead)
  · exact absurd (h _ hhead) (by decide)

theorem readSettingValue_settingValue (value : String) {rest : List Char}
    (h : EndsSetting rest) :
    readSettingValue ((settingValue value).toList ++ rest) = some (settingValue value, rest) := by
  unfold readSettingValue
  rcases settingValue_cases value with ⟨s, hs⟩ | ⟨hcomma, hquote⟩
  · rw [hs, readQuotedLiteral_literal]
  · obtain ⟨hnone, hvalue, hstop⟩ := span_setting hcomma hquote h
    rw [hnone, hvalue, hstop, String.ofList_toList]

/-- A setting as it stands among the others. -/
def settingText (setting : String × String) : List Char :=
  (setting.1 ++ " = " ++ setting.2).toList

section assigned

variable {α : Type} {read : Reader α} {text : α → String}

/-- Reads a plain name, an equals sign and what is read behind them. -/
def readAssigned (read : Reader α) : Reader (String × α) := fun cs => do
  let rest ← skip? " = " (cs.dropWhile isNameChar)
  let (value, rest) ← read rest
  return ((.ofList (cs.takeWhile isNameChar), value), rest)

theorem isRead_assigned {Ends : List Char → Prop} {key : String} (hkey : isPlainName key = true)
    {value : α} (hvalue : IsRead read (fun x => (text x).toList) Ends value) :
    IsRead (readAssigned read) (fun (name, x) => settingText (name, text x)) Ends (key, value) := by
  intro rest hrest
  have hname : ∀ c ∈ key.toList, isNameChar c = true := isNameChar_of_isPlainName hkey
  have htext : settingText (key, text value) ++ rest =
      key.toList ++ (" = ".toList ++ ((text value).toList ++ rest)) := by
    simp [settingText]
  have hstop : ∀ cs c, (" = ".toList ++ cs).head? = some c → isNameChar c = false := by
    rintro cs _ ⟨⟩
    rfl
  obtain ⟨hfront, hbehind⟩ := span_append hname (hstop ((text value).toList ++ rest))
  dsimp only
  unfold readAssigned
  rw [htext, hfront, hbehind, skip?_append]
  simp [hvalue rest hrest]

/-- A list of settings is read back where each value is read back in front of a comma and of
nothing. -/
theorem readList_assigned {entries : List (String × α)}
    (hkeys : ∀ x ∈ entries, isPlainName x.1 = true)
    (hread : ∀ x ∈ entries, IsRead read (fun x => (text x).toList) EndsSetting x.2) :
    readList (readAssigned read) ", "
        (", ".intercalate (entries.map fun (k, x) => k ++ " = " ++ text x)).toList =
      some (entries, []) := by
  have hassigned : ∀ x ∈ entries, IsRead (readAssigned read)
      (fun (name, x) => settingText (name, text x)) EndsSetting x :=
    fun x hx => isRead_assigned (hkeys x hx) (hread x hx)
  have hlist := readList_intercalate ", " [] (by decide) hassigned
    (fun cs c hc => (Option.some.inj hc).symm) nofun rfl fun _ => rfl
  rw [List.append_nil] at hlist
  rw [String.toList_intercalate, List.map_map]
  exact hlist

end assigned

/-- Reads all settings. -/
def readSettings (text : String) : Option (List (String × String)) :=
  match readList readSetting ", " text.toList with
  | some (settings, []) => some settings
  | _ => none

/-- The settings as they are written. -/
def writtenSettings (entries : List (String × String)) : List (String × String) :=
  entries.map fun (key, value) => (key, settingValue value)

theorem readSettings_intercalate {entries : List (String × String)}
    (h : ∀ x ∈ entries, isPlainName x.1 = true) :
    readSettings (", ".intercalate (entries.map fun (k, v) => k ++ " = " ++ settingValue v)) =
      some (writtenSettings entries) := by
  have hkeys : ∀ x ∈ writtenSettings entries, isPlainName x.1 = true := by
    intro x hx
    obtain ⟨entry, hmem, rfl⟩ := List.mem_map.mp hx
    exact h entry hmem
  have hread : ∀ x ∈ writtenSettings entries,
      IsRead readSettingValue (fun value => (id value).toList) EndsSetting x.2 := by
    intro x hx
    obtain ⟨⟨key, value⟩, _, rfl⟩ := List.mem_map.mp hx
    simp only [id, IsRead]
    exact fun rest hrest => readSettingValue_settingValue value hrest
  have htext : (entries.map fun (k, v) => k ++ " = " ++ settingValue v) =
      (writtenSettings entries).map fun (k, x) => k ++ " = " ++ id x := by
    rw [writtenSettings, List.map_map]
    exact List.map_congr_left fun x _ => by simp only [Function.comp_apply, id]
  have hlist : readList readSetting ", " _ = _ := readList_assigned hkeys hread
  rw [readSettings, htext, hlist]

/-! ## Lines -/

/-- The clauses by what they are for, in the order of their lines. -/
inductive Keyword where
  | engine
  | partitionBy
  | orderBy
  | primaryKey
  | sampleBy
  | ttl
  | settings
  deriving DecidableEq

namespace Keyword

def all : List Keyword := [engine, partitionBy, orderBy, primaryKey, sampleBy, ttl, settings]

/-- The words that a line of the clause begins with. -/
def words : Keyword → String
  | engine => "ENGINE = "
  | partitionBy => "PARTITION BY "
  | orderBy => "ORDER BY "
  | primaryKey => "PRIMARY KEY "
  | sampleBy => "SAMPLE BY "
  | ttl => "TTL "
  | settings => "SETTINGS "

/-- What stands behind the words, where the line begins with them. -/
def behind? (k : Keyword) (line : String) : Option String :=
  (skip? k.words line.toList).map .ofList

/-- The keyword that a line begins with. -/
def ofLine? (line : String) : Option Keyword := all.find? fun k => (k.behind? line).isSome

/-- What stands behind the words on the first line that begins with them. -/
def onLines? (k : Keyword) (lines : List String) : Option String := lines.findSome? k.behind?

theorem mem_all (k : Keyword) : k ∈ all := by cases k <;> decide

theorem eq_of_isPrefix {k l : Keyword} (h : k.words.toList <+: l.words.toList) : k = l := by
  have hall : ∀ k ∈ all, ∀ l ∈ all, k.words.toList <+: l.words.toList → k = l := by decide
  exact hall k k.mem_all l l.mem_all h

theorem behind?_words (k : Keyword) (text : String) : k.behind? (k.words ++ text) = some text := by
  rw [behind?, String.toList_append, skip?_append, Option.map_some, String.ofList_toList]

/-- A line begins with the words of one keyword alone. -/
theorem behind?_words_of_ne {k l : Keyword} (h : k ≠ l) (text : String) :
    k.behind? (l.words ++ text) = none := by
  rw [behind?, Option.map_eq_none_iff, skip?, Option.eq_none_iff_forall_ne_some]
  intro rest hrest
  have hprefix : k.words.toList <+: (l.words ++ text).toList :=
    ⟨rest, List.isPrefixOf?_eq_some_iff_append_eq.mp hrest⟩
  have hother : l.words.toList <+: (l.words ++ text).toList :=
    ⟨text.toList, String.toList_append.symm⟩
  rcases List.prefix_or_prefix_of_prefix hprefix hother with hk | hl
  · exact h (eq_of_isPrefix hk)
  · exact h (eq_of_isPrefix hl).symm

theorem ofLine?_words (k : Keyword) (text : String) : ofLine? (k.words ++ text) = some k := by
  have hbehind : ∀ l : Keyword, (l.behind? (k.words ++ text)).isSome = decide (l = k) := by
    intro l
    by_cases hlk : l = k
    · rw [hlk, behind?_words, decide_eq_true rfl, Option.isSome_some]
    · rw [behind?_words_of_ne hlk, decide_eq_false hlk, Option.isSome_none]
  simp only [ofLine?, hbehind]
  cases k <;> rfl

end Keyword

namespace Clause

def keyword : Clause → Keyword
  | engine _ => .engine
  | partitionBy _ => .partitionBy
  | orderBy _ => .orderBy
  | primaryKey _ => .primaryKey
  | sampleBy _ => .sampleBy
  | ttl _ => .ttl
  | settings _ => .settings

/-- The clause without its keyword. -/
def body : Clause → String
  | engine e | partitionBy e | sampleBy e | ttl e => e
  | orderBy [] => "tuple()"
  | orderBy columns | primaryKey columns => "(" ++ nameList columns ++ ")"
  | settings entries => ", ".intercalate (entries.map fun (k, v) => k ++ " = " ++ settingValue v)

theorem render_eq (c : Clause) : c.render = c.keyword.words ++ c.body := by
  cases c with
  | orderBy columns =>
    cases columns with
    | nil => decide
    | cons => simp [render, keyword, Keyword.words, body, ← String.append_assoc]
  | primaryKey => simp [render, keyword, Keyword.words, body, ← String.append_assoc]
  | _ => rfl

end Clause

/-! ## The clauses of an entity -/

namespace Entity

/-- The clause with the keyword, where it is written. -/
def clause? (e : Entity) : Keyword → Option Clause
  | .engine => some (.engine e.engineExpression)
  | .partitionBy => if e.engine.isMergeTree then e.partitionBy.map .partitionBy else none
  | .orderBy => if e.engine.isMergeTree then some (.orderBy e.sortingKey) else none
  | .primaryKey =>
    if e.engine.isMergeTree then
      if e.primaryKey.isEmpty || e.primaryKey = e.sortingKey then none
      else some (.primaryKey e.primaryKey)
    else none
  | .sampleBy => if e.engine.isMergeTree then e.sampleBy.map .sampleBy else none
  | .ttl => if e.engine.isMergeTree then e.ttl.map .ttl else none
  | .settings =>
    if e.settings.entries.isEmpty then none else some (.settings e.settings.entries)

theorem clauses_eq_filterMap (e : Entity) : e.clauses = Keyword.all.filterMap e.clause? := by
  rw [List.filterMap_eq_flatMap_toList]
  simp only [Keyword.all, List.flatMap_cons, List.flatMap_nil, clauses, clause?]
  cases e.engine.isMergeTree <;> simp [apply_ite Option.toList]

theorem keyword_of_clause? {e : Entity} {k : Keyword} {c : Clause} (h : e.clause? k = some c) :
    c.keyword = k := by
  cases k <;> simp only [clause?, Option.ite_none_right_eq_some, Option.ite_none_left_eq_some,
    Option.some.injEq, Option.map_eq_some_iff] at h
  case engine =>
    subst h
    rfl
  case orderBy | settings =>
    obtain ⟨_, rfl⟩ := h
    rfl
  case primaryKey =>
    obtain ⟨_, _, rfl⟩ := h
    rfl
  all_goals
    obtain ⟨_, _, _, rfl⟩ := h
    rfl

/-- Each line has its keyword, and the keywords keep their order. -/
theorem keywords_sublist (e : Entity) :
    ((e.clauses.map Clause.render).map Keyword.ofLine?).Sublist (Keyword.all.map some) := by
  rw [clauses_eq_filterMap, List.map_map]
  generalize Keyword.all = ks
  induction ks with
  | nil => exact .slnil
  | cons k ks ih =>
    rw [List.filterMap_cons]
    split
    · exact ih.cons _
    · rename_i c hc
      rw [List.map_cons, List.map_cons, Function.comp_apply, Clause.render_eq,
        Keyword.ofLine?_words, keyword_of_clause? hc]
      exact ih.cons_cons _

theorem mem_lines_iff {e : Entity} {line : String} :
    line ∈ e.clauses.map Clause.render ↔ ∃ k c, e.clause? k = some c ∧ c.render = line := by
  simp only [clauses_eq_filterMap, List.mem_map, List.mem_filterMap, Keyword.mem_all, true_and]
  exact ⟨fun ⟨c, ⟨k, hc⟩, hline⟩ => ⟨k, c, hc, hline⟩, fun ⟨k, c, hc, hline⟩ => ⟨c, ⟨k, hc⟩, hline⟩⟩

/-- Behind the words of a keyword stands what its clause says. -/
theorem onLines?_clauses (e : Entity) (k : Keyword) :
    k.onLines? (e.clauses.map Clause.render) = (e.clause? k).map Clause.body := by
  have hself : ∀ c, e.clause? k = some c → k.behind? c.render = some c.body := by
    intro c hc
    rw [Clause.render_eq, keyword_of_clause? hc, Keyword.behind?_words]
  have hother : ∀ l c, l ≠ k → e.clause? l = some c → k.behind? c.render = none := by
    intro l c hl hc
    rw [Clause.render_eq, keyword_of_clause? hc]
    exact Keyword.behind?_words_of_ne hl.symm _
  cases hclause : e.clause? k with
  | none =>
    rw [Option.map_none, Keyword.onLines?, List.findSome?_eq_none_iff]
    intro line hline
    obtain ⟨l, c, hc, rfl⟩ := mem_lines_iff.mp hline
    refine hother l c ?_ hc
    rintro rfl
    rw [hclause] at hc
    cases hc
  | some c =>
    have hfound : (k.onLines? (e.clauses.map Clause.render)).isSome = true :=
      List.findSome?_isSome_iff.mpr ⟨_, mem_lines_iff.mpr ⟨k, c, hclause, rfl⟩, by
        rw [hself c hclause, Option.isSome_some]⟩
    obtain ⟨text, htext⟩ := Option.isSome_iff_exists.mp hfound
    obtain ⟨line, hline, hbehind⟩ := List.exists_of_findSome?_eq_some htext
    obtain ⟨l, d, hd, rfl⟩ := mem_lines_iff.mp hline
    by_cases hl : l = k
    · rw [hl, hclause] at hd
      cases hd
      rw [htext, ← hbehind, hself c hclause, Option.map_some]
    · rw [hother l d hl hd] at hbehind
      cases hbehind

/-! ## What validation settles -/

/-- Outside of the MergeTree family nothing is declared that is not written. -/
theorem undeclared_of_validateKeys {e : Entity} (h : e.validateKeys = .ok ())
    (hplain : e.engine.isMergeTree = false) : e.orderBy = [] ∧ e.partitionBy = none ∧
      e.primaryKey = [] ∧ e.sampleBy = none ∧ e.ttl = none ∧ e.replication = none := by
  have hnone : e.sortedClauses = [] := by
    cases hclauses : e.sortedClauses with
    | nil => rfl
    | cons clause rest =>
      unfold validateKeys at h
      rw [hplain, hclauses] at h
      cases h
  simpa [sortedClauses] using hnone

theorem isPrefix_of_validateKeys {e : Entity} (h : e.validateKeys = .ok ())
    (horder : e.orderBy ≠ []) (hprimary : e.primaryKey ≠ []) : e.primaryKey <+: e.orderBy := by
  by_contra hprefix
  have hrefused : (!e.orderBy.isEmpty && !e.primaryKey.isEmpty &&
      !e.primaryKey.isPrefixOf e.orderBy) = true := by
    simp [horder, hprimary, ← Bool.not_eq_true, List.isPrefixOf_iff_prefix, hprefix]
  unfold validateKeys at h
  rw [hrefused] at h
  dsimp only at h
  split at h
  · split at h
    · cases h
    · cases h
  · cases h

theorem isPlainName_of_validateNames {e : Entity} (h : e.validateNames = .ok ()) :
    ∀ x ∈ e.settings.entries, isPlainName x.1 = true := by
  intro x hx
  by_contra hplain
  unfold validateNames at h
  cases hfind : (e.settings.entries.map (·.1)).find? (!isPlainName ·) with
  | none =>
    have := List.find?_eq_none.mp hfind x.1 (List.mem_map_of_mem hx)
    exact hplain (by simpa using this)
  | some key =>
    rw [hfind] at h
    cases h

theorem parts_of_validate {e : Entity} (h : e.validate = .ok ()) :
    e.engine.validate e.table = .ok () ∧ e.validateKeys = .ok () ∧ e.validateNames = .ok () := by
  unfold validate at h
  dsimp only at h
  split at h
  · cases h
  · obtain ⟨_, hengine, h⟩ := Outcome.bind_eq_ok.mp h
    obtain ⟨_, hkeys, h⟩ := Outcome.bind_eq_ok.mp h
    obtain ⟨_, hnames, _⟩ := Outcome.bind_eq_ok.mp h
    exact ⟨hengine, hkeys, hnames⟩

end Entity

/-! ## The layout that the lines tell -/

/-- What a table declares about its engine and how its rows are laid out. -/
structure Layout where
  /-- The whole expression on the line of the engine. -/
  engineText : String
  replication : Option Replication
  engine : Engine
  partitionBy : Option String
  orderBy : List String
  primaryKey : List String
  sampleBy : Option String
  ttl : Option String
  /-- The settings as they are written. -/
  settings : List (String × String)
  deriving DecidableEq, Repr

/-- Reads the columns of a key; an empty tuple has none. -/
def readColumns? (text : String) : Option (List String) :=
  if text = "tuple()" then some []
  else do
    let (columns, rest) ← readNames (← skip? "(" text.toList)
    if rest = [')'] then some columns else none

/-- Reads the lines of the clauses in whatever order they are. Without a primary key of its own, a
table has the sorting key for one. -/
def Layout.ofLines? (lines : List String) : Option Layout := do
  let engineText ← Keyword.engine.onLines? lines
  let (replication, engine) ← readEngine? engineText
  let orderBy ← ((Keyword.orderBy.onLines? lines).map readColumns?).getD (some [])
  let primaryKey ← ((Keyword.primaryKey.onLines? lines).map readColumns?).getD (some orderBy)
  let settings ← ((Keyword.settings.onLines? lines).map readSettings).getD (some [])
  return { engineText, replication, engine, orderBy, primaryKey, settings,
           partitionBy := Keyword.partitionBy.onLines? lines,
           sampleBy := Keyword.sampleBy.onLines? lines, ttl := Keyword.ttl.onLines? lines }

theorem readColumns?_nameList (columns : List String) :
    readColumns? ("(" ++ nameList columns ++ ")") = some columns := by
  have htuple : "(" ++ nameList columns ++ ")" ≠ "tuple()" := by
    intro heq
    have hfirst := congrArg (fun s => s.toList.head?) heq
    simp at hfirst
  have htext : ("(" ++ nameList columns ++ ")").toList =
      "(".toList ++ ((nameList columns).toList ++ [')']) := by simp
  rw [readColumns?, if_neg htuple, htext, skip?_append]
  simp [readNames_nameList columns [')'] (by simp) rfl]

theorem readColumns?_orderBy (columns : List String) :
    readColumns? (Clause.orderBy columns).body = some columns := by
  cases columns with
  | nil => rfl
  | cons => exact readColumns?_nameList _

namespace Entity

/-- The columns that rows are found by: the declared ones, else the sorting key. -/
def effectivePrimaryKey (e : Entity) : List String :=
  if e.primaryKey.isEmpty then e.sortingKey else e.primaryKey

/-- What the entity declares. -/
def layout (e : Entity) : Layout where
  engineText := e.engineExpression
  replication := e.replication
  engine := e.engine
  partitionBy := e.partitionBy
  orderBy := e.sortingKey
  primaryKey := e.effectivePrimaryKey
  sampleBy := e.sampleBy
  ttl := e.ttl
  settings := writtenSettings e.settings.entries

section

variable {e : Entity}

/-- An optional clause is read back where it is not declared outside of the MergeTree family. -/
theorem body_optional {declared : Option String} {clause : String → Clause}
    (hbody : ∀ s, (clause s).body = s) (hplain : e.engine.isMergeTree = false → declared = none) :
    (if e.engine.isMergeTree then declared.map clause else none).map Clause.body = declared := by
  cases hfamily : e.engine.isMergeTree with
  | true => cases declared <;> simp [hbody]
  | false => simp [hplain hfamily]

theorem columns_orderBy (h : e.validateKeys = .ok ()) :
    (((e.clause? .orderBy).map Clause.body).map readColumns?).getD (some []) =
      some e.sortingKey := by
  rw [clause?]
  cases hfamily : e.engine.isMergeTree with
  | true => exact readColumns?_orderBy e.sortingKey
  | false =>
    obtain ⟨horder, _, hprimary, _⟩ := undeclared_of_validateKeys h hfamily
    simp [sortingKey, horder, hprimary]

theorem columns_primaryKey (h : e.validateKeys = .ok ()) :
    (((e.clause? .primaryKey).map Clause.body).map readColumns?).getD (some e.sortingKey) =
      some e.effectivePrimaryKey := by
  rw [clause?, effectivePrimaryKey]
  cases hfamily : e.engine.isMergeTree with
  | true =>
    by_cases hempty : e.primaryKey.isEmpty = true
    · simp [hempty]
    · by_cases hsame : e.primaryKey = e.sortingKey
      · simp [hsame]
      · simp [hempty, hsame, Clause.body, readColumns?_nameList]
  | false =>
    obtain ⟨_, _, hprimary, _⟩ := undeclared_of_validateKeys h hfamily
    simp [hprimary]

theorem settings_written (h : e.validateNames = .ok ()) :
    (((e.clause? .settings).map Clause.body).map readSettings).getD (some []) =
      some (writtenSettings e.settings.entries) := by
  rw [clause?]
  cases hentries : e.settings.entries with
  | nil => rfl
  | cons x rest =>
    rw [← hentries]
    simp only [hentries, List.isEmpty_cons, Bool.false_eq_true, if_false, Option.map_some,
      Option.getD_some]
    exact readSettings_intercalate (hentries ▸ isPlainName_of_validateNames h)

/-- The lines tell what a validated entity declares. -/
theorem ofLines?_clauses (h : e.validate = .ok ()) :
    Layout.ofLines? (e.clauses.map Clause.render) = some e.layout := by
  obtain ⟨hvalid, hkeys, hnames⟩ := parts_of_validate h
  have hundeclared := undeclared_of_validateKeys hkeys
  have hread : readEngine? e.engineExpression = some (e.replication, e.engine) :=
    readEngine?_engineExpression hvalid fun hfamily => (hundeclared hfamily).2.2.2.2.2
  have hpartition : (e.clause? .partitionBy).map Clause.body = e.partitionBy :=
    body_optional (fun _ => rfl) fun hfamily => (hundeclared hfamily).2.1
  have hsample : (e.clause? .sampleBy).map Clause.body = e.sampleBy :=
    body_optional (fun _ => rfl) fun hfamily => (hundeclared hfamily).2.2.2.1
  have httl : (e.clause? .ttl).map Clause.body = e.ttl :=
    body_optional (fun _ => rfl) fun hfamily => (hundeclared hfamily).2.2.2.2.1
  have hengine : (e.clause? .engine).map Clause.body = some e.engineExpression := rfl
  rw [Layout.ofLines?]
  simp only [onLines?_clauses, hengine, hread, columns_orderBy hkeys, settings_written hnames,
    hpartition, hsample, httl, Option.bind_eq_bind, Option.bind_some, columns_primaryKey hkeys]
  rfl

theorem effectivePrimaryKey_isPrefix (h : e.validateKeys = .ok ()) :
    e.effectivePrimaryKey <+: e.sortingKey := by
  unfold effectivePrimaryKey sortingKey
  by_cases hprimary : e.primaryKey = []
  · simp [hprimary]
  · by_cases horder : e.orderBy = []
    · simp [horder]
    · simpa [hprimary, horder] using isPrefix_of_validateKeys h horder hprimary

end

/-- A validated entity's lines are in the one order, each at most once, and tell all that it
declares: the engine with its arguments, the replication, the keys, the expressions and the
settings. The primary key that they tell begins the sorting key and is the declared one. -/
theorem clauses_lose_nothing {e : Entity} (h : e.validate = .ok ()) :
    let lines := e.clauses.map Clause.render
    e.clauseText = "\n".intercalate lines ∧
      (lines.map Keyword.ofLine?).Sublist (Keyword.all.map some) ∧ Keyword.all.Nodup ∧
      ∃ told, Layout.ofLines? lines = some told ∧
        told.engineText = e.engineExpression ∧ told.engine = e.engine ∧
        told.replication = e.replication ∧ told.partitionBy = e.partitionBy ∧
        told.sampleBy = e.sampleBy ∧ told.ttl = e.ttl ∧
        told.settings = e.settings.entries.map (fun (key, value) => (key, settingValue value)) ∧
        (e.orderBy ≠ [] → told.orderBy = e.orderBy) ∧
        (e.orderBy = [] → told.orderBy = e.primaryKey) ∧
        (e.primaryKey ≠ [] → told.primaryKey = e.primaryKey) ∧
        (e.primaryKey = [] → told.primaryKey = told.orderBy) ∧
        told.primaryKey <+: told.orderBy := by
  intro lines
  obtain ⟨_, hkeys, _⟩ := parts_of_validate h
  refine ⟨rfl, keywords_sublist e, by decide, e.layout, ofLines?_clauses h, rfl, rfl, rfl, rfl, rfl,
    rfl, rfl, ?_, ?_, ?_, ?_, effectivePrimaryKey_isPrefix hkeys⟩
  · exact fun hdeclared => if_neg (by simpa using hdeclared)
  · exact fun hnone => if_pos (by simpa using hnone)
  · exact fun hdeclared => if_neg (by simpa using hdeclared)
  · exact fun hnone => if_pos (by simpa using hnone)

/-- The primary key of a replicated table is left out where it is the whole sorting key, and it is
told all the same, with the version that the engine takes and the place where the replicas
meet. -/
theorem replicated_table_loses_nothing :
    let e : Entity := { table := "events", engine := .replacing (some "At") none,
                        replication := some ⟨"/t/events", "one"⟩, primaryKey := ["Id", "At"],
                        partitionBy := some "toYYYYMM(At)\nTTL At", sampleBy := some "Id",
                        settings := .ofList [("index_granularity", "8192"),
                          ("storage_policy", "'hot, cold'")] }
    let lines := e.clauses.map Clause.render
    e.validate = .ok () ∧ lines.length = 5 ∧
      ∃ told, Layout.ofLines? lines = some told ∧
        told.engineText = "ReplicatedReplacingMergeTree('/t/events', 'one', \"At\")" ∧
        told.engine = .replacing (some "At") none ∧
        told.replication = some ⟨"/t/events", "one"⟩ ∧ told.partitionBy = e.partitionBy ∧
        told.orderBy = ["Id", "At"] ∧ told.primaryKey = ["Id", "At"] ∧
        told.settings = [("index_granularity", "8192"), ("storage_policy", "'hot, cold'")] := by
  intro e lines
  have hvalid : e.validate = .ok () := by
    simp only [e]
    rfl
  obtain ⟨_, _, _, told, htold, htext, hengine, hreplication, hpartition, _, _, hsettings, _,
    horder, hprimary, _⟩ := clauses_lose_nothing hvalid
  refine ⟨hvalid, by rfl, told, htold, ?_, hengine, hreplication, hpartition, horder rfl,
    hprimary nofun, ?_⟩
  · rw [htext]
    decide +kernel
  · rw [hsettings]
    decide

end Entity

end ColumnStore
