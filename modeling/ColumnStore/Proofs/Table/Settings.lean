-- The settings of a table stand on the last line of its clauses. The value of
-- each is one token there, a number, a truth value or a complete literal, so
-- the line is read back setting by setting whatever text the values hold.
import ColumnStore.Proofs.Number.FloatText
import ColumnStore.Proofs.Table.Clauses

namespace ColumnStore

open Text

/-! ## Tokens -/

/-- A number or a truth value, which stands without quotes. -/
def IsBareSetting (text : String) : Prop :=
  Number.SpellsFloat text.toList ∨ text = "true" ∨ text = "false"

theorem isBareSetting_iff {text : String} : IsBareSetting text ↔
    ((Number.readFloat? text.toList).isSome || text = "true" || text = "false") = true := by
  simp [IsBareSetting, Number.isSome_readFloat?_iff, or_assoc]

instance (text : String) : Decidable (IsBareSetting text) :=
  decidable_of_iff _ isBareSetting_iff.symm

/-- What stands for the value of a setting. -/
inductive SettingToken where
  | bare (text : String)
  | quoted (content : String)
  deriving DecidableEq

namespace SettingToken

def text : SettingToken → String
  | bare text => text
  | quoted content => literal content

/-- Reads a literal, or a bare value up to the next comma. -/
def read : Reader SettingToken := fun cs =>
  match readQuotedLiteral cs with
  | some (content, rest) => some (quoted content, rest)
  | none =>
    let word := String.ofList (cs.takeWhile (· ≠ ','))
    if IsBareSetting word then some (bare word, cs.dropWhile (· ≠ ',')) else none

/-- The second text is the first one without a pair of single quotes around it, if it has one. -/
inductive Unquotes : String → String → Prop
  | pair (content : String) : Unquotes ("'" ++ content ++ "'") content
  | plain {text : String} (h : ∀ content, text ≠ "'" ++ content ++ "'") : Unquotes text text

/-- What the value is, without the blanks around it. -/
inductive IsTokenOf (value : String) : SettingToken → Prop
  | bare (h : IsBareSetting (trimmed value)) : IsTokenOf value (.bare (trimmed value))
  | quoted (h : ¬IsBareSetting (trimmed value)) {content : String}
      (hcontent : Unquotes (trimmed value) content) : IsTokenOf value (.quoted content)

/-! ## Values -/

theorem toList_pair (content : String) :
    ("'" ++ content ++ "'").toList = '\'' :: (content.toList ++ ['\'']) := by simp

/-- A value is written as its token. -/
theorem exists_isTokenOf (value : String) :
    ∃ token, IsTokenOf value token ∧ settingValue value = token.text := by
  unfold settingValue
  dsimp only
  by_cases hbare : IsBareSetting (trimmed value)
  · rw [if_pos (isBareSetting_iff.mp hbare)]
    exact ⟨_, .bare hbare, rfl⟩
  rw [if_neg (isBareSetting_iff.not.mp hbare)]
  split
  · rename_i cs hquote
    split
    · rename_i hlast
      have hpair : trimmed value = "'" ++ .ofList cs.dropLast ++ "'" := by
        rw [← String.toList_inj, toList_pair, String.toList_ofList, hquote,
          List.dropLast_append_getLast? _ hlast]
      refine ⟨_, .quoted hbare ?_, rfl⟩
      rw [hpair]
      exact .pair _
    · rename_i hlast
      -- one quote in front is no pair, also where it is the whole value
      refine ⟨_, .quoted hbare (.plain fun content hpair => ?_), rfl⟩
      rw [hpair, toList_pair, List.cons.injEq] at hquote
      rw [← hquote.2, List.getLast?_concat] at hlast
      exact hlast rfl
  · rename_i hquote
    refine ⟨_, .quoted hbare (.plain fun content hpair => ?_), rfl⟩
    rw [hpair, toList_pair] at hquote
    exact hquote _ rfl

/-- What would end a value, a literal or a line stands in no bare value. -/
theorem not_mem_of_isBareSetting {text : String} (h : IsBareSetting text) {c : Char}
    (hc : c ∈ [',', '\'', '\n', '\r', '\t', '\x00']) : c ∉ text.toList := by
  have hmark : Number.IsForeign c ∧ c ∉ "true".toList ∧ c ∉ "false".toList := by
    simp only [List.mem_cons, List.not_mem_nil, or_false] at hc
    rcases hc with rfl | rfl | rfl | rfl | rfl | rfl <;>
      exact ⟨⟨rfl, by decide, by decide⟩, by decide, by decide⟩
  obtain ⟨hforeign, htrue, hfalse⟩ := hmark
  rcases h with h | rfl | rfl
  · obtain ⟨r, hr⟩ := Option.isSome_iff_exists.mp (Number.isSome_readFloat?_iff.mpr h)
    exact hforeign.not_mem_of_readFloat? hr
  · exact htrue
  · exact hfalse

variable {value : String} {token : SettingToken}

theorem IsTokenOf.isRead (h : IsTokenOf value token) :
    IsRead read (fun t => t.text.toList) EndsSetting token := by
  intro rest hrest
  cases h with
  | quoted _ hcontent => simp only [text, read, readQuotedLiteral_literal]
  | bare hbare =>
    obtain ⟨hnone, hfront, hbehind⟩ := span_setting (not_mem_of_isBareSetting hbare (by decide))
      (not_mem_of_isBareSetting hbare (by decide)) hrest
    simp only [text, read, hnone, hfront, hbehind, String.ofList_toList, if_pos hbare]

theorem IsTokenOf.not_mem_text (h : IsTokenOf value token) {c : Char}
    (hc : c ∈ ['\n', '\r', '\t', '\x00']) : c ∉ token.text.toList := by
  cases h with
  | bare hbare =>
    exact not_mem_of_isBareSetting hbare (List.mem_cons_of_mem _ (List.mem_cons_of_mem _ hc))
  | quoted => exact not_mem_literal hc _

end SettingToken

/-! ## The line -/

/-- Reads the line of the settings. -/
def readSettingsLine (line : String) : Option (List (String × SettingToken)) := do
  let (settings, rest) ← readList (readAssigned SettingToken.read) ", "
    (← skip? "SETTINGS " line.toList)
  if rest.isEmpty then some settings else none

/-- The line of settings whose values are tokens already. -/
def settingsLine (settings : List (String × SettingToken)) : String :=
  "SETTINGS " ++ ", ".intercalate (settings.map fun (key, token) => key ++ " = " ++ token.text)

/-- The setting has the name of the entry and the token of its value. -/
def KeepsEntry (entry : String × String) (setting : String × SettingToken) : Prop :=
  setting.1 = entry.1 ∧ setting.2.IsTokenOf entry.2

variable {entries : List (String × String)} {settings : List (String × SettingToken)}

/-- Entries are written as a line of settings that keep them. -/
theorem exists_keepsEntry (entries : List (String × String)) : ∃ settings,
    List.Forall₂ KeepsEntry entries settings ∧
      (Clause.settings entries).render = settingsLine settings := by
  have hall : ∀ x ∈ entries, ∃ s, KeepsEntry x s ∧
      x.1 ++ " = " ++ settingValue x.2 = s.1 ++ " = " ++ s.2.text := by
    intro x _
    obtain ⟨token, htoken, hvalue⟩ := SettingToken.exists_isTokenOf x.2
    exact ⟨(x.1, token), ⟨rfl, htoken⟩, by rw [hvalue]⟩
  obtain ⟨settings, hsettings⟩ := Outcome.exists_forall₂_iff.mpr hall
  refine ⟨settings, hsettings.imp fun _ _ h => h.1, ?_⟩
  rw [Clause.render, settingsLine]
  refine congrArg (fun texts => "SETTINGS " ++ ", ".intercalate texts) ?_
  rw [← List.forall₂_eq_eq_eq, List.forall₂_map_left_iff, List.forall₂_map_right_iff]
  exact hsettings.imp fun _ _ h => h.2

theorem readSettingsLine_settingsLine (hkeys : ∀ x ∈ entries, isPlainName x.1 = true)
    (h : List.Forall₂ KeepsEntry entries settings) :
    readSettingsLine (settingsLine settings) = some settings := by
  have hkept : ∀ s ∈ settings, isPlainName s.1 = true ∧
      IsRead SettingToken.read (fun t => t.text.toList) EndsSetting s.2 := by
    intro s hs
    obtain ⟨x, hx, hname, htoken⟩ := Outcome.exists_mem_of_forall₂ h hs
    exact ⟨hname ▸ hkeys x hx, htoken.isRead⟩
  have hlist := readList_assigned (fun s hs => (hkept s hs).1) fun s hs => (hkept s hs).2
  rw [readSettingsLine, settingsLine, String.toList_append, skip?_append]
  simp only [Option.bind_eq_bind, Option.bind_some, hlist, List.isEmpty_nil, if_true]

/-- No line break, tab or NUL of a value stands in the line as it is. -/
theorem not_mem_settingsLine (hkeys : ∀ x ∈ entries, isPlainName x.1 = true)
    (h : List.Forall₂ KeepsEntry entries settings) {c : Char}
    (hc : c ∈ ['\n', '\r', '\t', '\x00']) : c ∉ (settingsLine settings).toList := by
  have hmark : c ∉ "SETTINGS ".toList ∧ c ∉ ", ".toList ∧ c ∉ " = ".toList ∧
      isNameChar c = false := by
    simp only [List.mem_cons, List.not_mem_nil, or_false] at hc
    rcases hc with rfl | rfl | rfl | rfl <;> decide
  obtain ⟨hwords, hcomma, hequals, hname⟩ := hmark
  rw [settingsLine, String.toList_append, String.toList_intercalate, List.map_map, List.mem_append]
  rintro (hmem | hmem)
  · exact hwords hmem
  rcases mem_intercalate hmem with hmem | ⟨s, hs, hmem⟩
  · exact hcomma hmem
  obtain ⟨x, hx, hkey, htoken⟩ := Outcome.exists_mem_of_forall₂ h hs
  simp only [Function.comp_apply, String.toList_append, List.mem_append] at hmem
  rcases hmem with (hmem | hmem) | hmem
  · have := isNameChar_of_isPlainName (hkeys x hx) c (hkey ▸ hmem)
    rw [hname] at this
    cases this
  · exact hequals hmem
  · exact htoken.not_mem_text hc hmem

namespace Entity

variable {e : Entity}

/-- The settings come behind all other clauses. -/
theorem clauses_eq_append (e : Entity) :
    e.clauses = Keyword.all.dropLast.filterMap e.clause? ++ (e.clause? .settings).toList := by
  have hall : Keyword.all = Keyword.all.dropLast ++ [.settings] := rfl
  rw [clauses_eq_filterMap, hall, List.filterMap_append, ← hall]
  cases h : e.clause? .settings <;> simp [h]

theorem ofLine?_of_mem_front (e : Entity) {line : String}
    (h : line ∈ (Keyword.all.dropLast.filterMap e.clause?).map Clause.render) :
    Keyword.ofLine? line ≠ some .settings := by
  obtain ⟨c, hc, rfl⟩ := List.mem_map.mp h
  obtain ⟨k, hk, hclause⟩ := List.mem_filterMap.mp hc
  rw [Clause.render_eq, Keyword.ofLine?_words, keyword_of_clause? hclause]
  rintro ⟨⟩
  revert hk
  decide

/-- The settings of a validated entity are on the last line of its clauses, in the order of their
plain names. The line is read back as the names with one token for each value, and holds nothing
that would end it. No other line begins as it does. -/
theorem settings_stay_on_their_line (h : e.validate = .ok ()) :
    let entries := e.settings.entries
    let lines := e.clauses.map Clause.render
    entries.Pairwise (fun x y => x.1 < y.1) ∧ (∀ x ∈ entries, isPlainName x.1 = true) ∧
    ∃ others settings, (∀ line ∈ others, Keyword.ofLine? line ≠ some .settings) ∧
      lines = (if entries = [] then others else others ++ [settingsLine settings]) ∧
      List.Forall₂ (fun x s => s.1 = x.1 ∧ s.2.IsTokenOf x.2) entries settings ∧
      readSettingsLine (settingsLine settings) = some settings ∧
      ∀ c ∈ ['\n', '\r', '\t', '\x00'], c ∉ (settingsLine settings).toList := by
  intro entries lines
  have hkeys := isPlainName_of_validateNames (parts_of_validate h).2.2
  obtain ⟨settings, hsettings, hline⟩ := exists_keepsEntry entries
  refine ⟨e.settings.ascending, hkeys, _, settings, fun _ => e.ofLine?_of_mem_front, ?_, hsettings,
    readSettingsLine_settingsLine hkeys hsettings, fun _ => not_mem_settingsLine hkeys hsettings⟩
  rw [← hline]
  simp only [lines, clauses_eq_append, List.map_append, clause?]
  by_cases hnone : entries = []
  · rw [if_pos hnone, if_pos (by simpa using hnone)]
    exact List.append_nil _
  · rw [if_neg hnone, if_neg (by simpa using hnone)]
    rfl

/-- Values that look like other settings, like numbers or like the end of a literal are read back
as they are. -/
theorem quoted_settings_stay_apart :
    let e : Entity := { table := "events", engine := .mergeTree, orderBy := ["Id"],
                        settings := .ofList [("disk", "x', ttl = 'y\\"), ("codec", " 'it's' "),
                          ("ratio", "\t+1.E-5\n"), ("limits", "1,5"), ("mark", "'")] }
    let line := "SETTINGS codec = 'it\\'s', disk = 'x\\', ttl = \\'y\\\\', limits = '1,5', " ++
      "mark = '\\'', ratio = +1.E-5"
    let settings := [("codec", SettingToken.quoted "it's"), ("disk", .quoted "x', ttl = 'y\\"),
      ("limits", .quoted "1,5"), ("mark", .quoted "'"), ("ratio", .bare "+1.E-5")]
    e.validate = .ok () ∧ (e.clauses.map Clause.render).getLast? = some line ∧
      readSettingsLine line = some settings ∧
      List.Forall₂ (fun x s => s.1 = x.1 ∧ s.2.IsTokenOf x.2) e.settings.entries settings ∧
      '\n' ∉ line.toList := by
  intro e line settings
  have hvalid : e.validate = .ok () := by
    simp only [e]
    rfl
  have hlast : (e.clauses.map Clause.render).getLast? = some line := by decide +kernel
  have hsome : e.settings.entries ≠ [] := by decide +kernel
  have htold : readSettingsLine line = some settings := by decide +kernel
  obtain ⟨_, _, others, written, _, hlines, hkept, hread, hmarks⟩ :=
    settings_stay_on_their_line hvalid
  have hline : settingsLine written = line := by
    rw [hlines, if_neg hsome, List.getLast?_concat] at hlast
    exact Option.some.inj hlast
  rw [hline] at hread hmarks
  have hsame : written = settings := Option.some.inj (hread.symm.trans htold)
  rw [hsame] at hkept
  exact ⟨hvalid, hlast, htold, hkept, hmarks _ (by decide)⟩

end Entity

end ColumnStore
