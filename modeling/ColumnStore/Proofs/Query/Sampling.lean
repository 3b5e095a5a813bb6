-- The size of a sample. A size is compared as a double, so a decimal number
-- that is closer to one than to the double behind one is taken for one, though
-- it is larger; every other whole or decimal number is compared as it is.
import ColumnStore.Proofs.Number.Nearest
import ColumnStore.Proofs.Outcome
import ColumnStore.Proofs.Query.Success
import ColumnStore.Proofs.Value.NumberText
import ColumnStore.Query.Select

namespace ColumnStore

open Number (Denotes nearestFloat_between_iff)

namespace Select

/-! ## Sizes -/

variable {v : Value} {x : ℚ}

/-- The number is a size by its exact value: a whole number from one on, or a decimal number above
zero and up to one. -/
def IsExactSize (v : Value) (x : ℚ) : Prop :=
  match v with
  | .int _ | .uint _ => 1 ≤ x
  | .decimal _ => 0 < x ∧ x ≤ 1
  | _ => False

/-- A decimal number that is more than one, but not so much that its nearest double is. -/
def IsRoundedToOne (v : Value) (x : ℚ) : Prop :=
  (∃ d, v = .decimal d) ∧ 1 < x ∧ x ≤ 1 + 1 / 2 ^ 53

theorem isSampleSize_decimal_iff (d : Number.Decimal) : isSampleSize (.decimal d) = true ↔
    0 < (d.units / 10 ^ d.places : ℚ) ∧ (d.units / 10 ^ d.places : ℚ) ≤ 1 + 1 / 2 ^ 53 := by
  have hscale : (0 : ℚ) < 10 ^ d.places := by positivity
  have hpow : Nat.pow 10 d.places = 10 ^ d.places := rfl
  have hlarge : 10 ^ d.places ≤ 2 ^ 94 :=
    Nat.le_trans (Nat.pow_le_pow_right (by decide) d.places_le) (by decide)
  rw [isSampleSize, Value.toFloat?, d.float?_text, Option.any_some, Bool.and_eq_true,
    decide_eq_true_iff, decide_eq_true_iff, hpow,
    nearestFloat_between_iff (Nat.pow_pos (by decide)) hlarge (by decide),
    div_pos_iff_of_pos_right hscale, div_le_iff₀ hscale, d.units_eq]
  cases d.negative with
  | true => simp
  | false =>
    have hcompare : (d.coefficient : ℚ) ≤ (1 + 1 / 2 ^ 53) * 10 ^ d.places ↔
        d.coefficient * 2 ^ 53 ≤ 10 ^ d.places * (2 ^ 53 + 1) := by
      rw [← @Nat.cast_le ℚ]
      push_cast
      constructor <;> intro h <;> linarith
    simp only [Bool.false_eq_true, if_false]
    rw [hcompare, Nat.cast_pos, and_iff_right trivial, Nat.pos_iff_ne_zero]

theorem isSampleSize_iff (hx : v.rational? = some x) :
    isSampleSize v = true ↔ IsExactSize v x ∨ IsRoundedToOne v x := by
  cases v with
  | int n =>
    cases hx
    simp [isSampleSize, IsExactSize, IsRoundedToOne]
    exact_mod_cast Iff.rfl
  | uint n =>
    cases hx
    simp [isSampleSize, IsExactSize, IsRoundedToOne]
  | decimal d =>
    cases hx
    rw [isSampleSize_decimal_iff]
    have hstep : (0 : ℚ) < 1 / 2 ^ 53 := by positivity
    generalize (d.units / 10 ^ d.places : ℚ) = x
    have hdecimal : IsRoundedToOne (.decimal d) x ↔ 1 < x ∧ x ≤ 1 + 1 / 2 ^ 53 :=
      and_iff_right ⟨d, rfl⟩
    rw [hdecimal, IsExactSize]
    constructor
    · rintro ⟨hpos, hle⟩
      rcases le_or_gt x 1 with hone | hone
      · exact .inl ⟨hpos, hone⟩
      · exact .inr ⟨hone, hle⟩
    · rintro (⟨hpos, hone⟩ | ⟨hone, hle⟩)
      · exact ⟨hpos, by linarith⟩
      · exact ⟨by linarith, hle⟩
  | bigInt n => simp [isSampleSize, IsExactSize, IsRoundedToOne]
  | _ => cases hx

/-! ## Queries with a sample -/

/-- The text before and behind the table in a query. -/
def frame (q : Select) (d : TypeDefaults) (settings : List String) :
    Lowering (String × String) := do
  let projections ← q.projections.mapM (projectionText d)
  let filter ← (Expr.conjunction q.filters).toList.mapM (lowerText d)
  let groupBy ← q.groupBy.mapM (lowerText d)
  let having ← q.having.toList.mapM (lowerText d)
  let orderBy ← q.orderBy.mapM (orderText d)
  let limit ← q.limit.toList.mapM (lowerText d)
  let offset ← q.offset.toList.mapM (lowerText d)
  let columns := if projections.isEmpty then ["*"] else projections
  return ("SELECT " ++ ", ".intercalate columns ++ "\nFROM ",
    clause "WHERE" filter ++ clause "GROUP BY" groupBy ++ clause "HAVING" having ++
      clause "ORDER BY" orderBy ++ clause "LIMIT" limit ++ clause "OFFSET" offset ++
      clause "SETTINGS" settings)

theorem body_eq (q : Select) (d : TypeDefaults) (source : String) (settings : List String) :
    q.body d source settings =
      (fun parts => parts.1 ++ source ++ parts.2) <$> q.frame d settings := by
  unfold body frame
  simp only [map_bind, map_pure, String.append_assoc]

/-- Nothing, or text that begins a new line. -/
def OpensLine (s : String) : Prop := s = "" ∨ ∃ rest, s = "\n" ++ rest

theorem OpensLine.append {s t : String} (hs : OpensLine s) (ht : OpensLine t) :
    OpensLine (s ++ t) := by
  rcases hs with rfl | ⟨rest, rfl⟩
  · rwa [String.empty_append]
  · exact .inr ⟨rest ++ t, String.append_assoc ..⟩

theorem opensLine_clause (keyword : String) (parts : List String) :
    OpensLine (clause keyword parts) := by
  unfold clause
  split
  · exact .inl rfl
  · exact .inr ⟨keyword ++ (" " ++ ", ".intercalate parts), by simp only [String.append_assoc]⟩

/-- Whatever follows the table is on lines of its own. -/
theorem gives_frame (q : Select) (d : TypeDefaults) (settings : List String) :
    Lowering.Gives (q.frame d settings) fun parts => OpensLine parts.2 := by
  unfold frame
  iterate 7 refine .after fun _ => ?_
  apply Lowering.Gives.pure
  iterate 6 refine .append ?_ (opensLine_clause _ _)
  exact opensLine_clause _ _

/-- The table, and its modifier for latest versions. -/
def source (q : Select) : String :=
  Text.qualifiedName q.schema q.table ++ (if q.final then " FINAL" else "")

variable {q : Select} {t : QueryContext} {p : PreparedQuery}

/-- The texts of the settings. -/
def settingTexts (q : Select) : Outcome (List String) :=
  q.settings.mapM fun (name, e) => settingText name e

theorem prepare_eq_ok_iff (hmodel : t.model = none) : q.prepare t = .ok p ↔
    ∃ sample, q.sample.toList.mapM sampleText = .ok sample ∧
      ∃ settings, q.settingTexts = .ok settings ∧
        ∃ front back, (q.frame t.types settings).run [] = .ok ((front, back), p.parameters) ∧
          p.sql = front ++ (q.source ++ String.join (sample.map (" SAMPLE " ++ ·))) ++ back := by
  have hentity : q.checkEntity t = .ok () := by
    unfold checkEntity
    rw [hmodel]
    rfl
  unfold prepare settingTexts
  simp only [Outcome.bind_eq_ok, body_eq]
  constructor
  · rintro ⟨_, _, sample, hsample, settings, hsettings, ⟨sql, ps⟩, hrun, h⟩
    cases h
    obtain ⟨⟨front, back⟩, ps, hframe, h⟩ := Lowering.run_map_eq_ok.mp hrun
    cases h
    exact ⟨sample, hsample, settings, hsettings, front, back, hframe, rfl⟩
  · rintro ⟨sample, hsample, settings, hsettings, front, back, hframe, hsql⟩
    refine ⟨(), hentity, sample, hsample, settings, hsettings, (p.sql, p.parameters), ?_, rfl⟩
    exact Lowering.run_map_eq_ok.mpr ⟨(front, back), p.parameters, hframe, by rw [hsql]; rfl⟩

/-- What is in order without a sample is in order with one that has a text, which stands at the
end of the table's line; the parameters are the same. -/
theorem exists_prepare_sample {p₀ : PreparedQuery} (hmodel : t.model = none)
    (hplain : { q with sample := none }.prepare t = .ok p₀) (e : Expr) :
    ∃ front back, p₀.sql = front ++ back ∧ OpensLine back ∧
      ∀ p, { q with sample := some e }.prepare t = .ok p ↔
        ∃ text, sampleText e = .ok text ∧
          p = ⟨front ++ " SAMPLE " ++ text ++ back, p₀.parameters⟩ := by
  obtain ⟨_, hsample, settings, hsettings, front, back, hframe, hsql⟩ :=
    (prepare_eq_ok_iff hmodel).mp hplain
  cases hsample
  refine ⟨front ++ q.source, back, ?_, gives_frame q _ _ _ _ _ hframe, fun p => ?_⟩
  · rw [hsql]
    exact congrArg (front ++ · ++ back) (String.append_empty ..)
  have hsource : ∀ text : String,
      front ++ (q.source ++ String.join [" SAMPLE " ++ text]) ++ back =
        front ++ q.source ++ " SAMPLE " ++ text ++ back := by
    intro text
    simp [String.append_assoc]
  rw [prepare_eq_ok_iff hmodel]
  constructor
  · rintro ⟨_, hsample, settings', hsettings', front', back', hframe', hsql'⟩
    cases hsettings.symm.trans hsettings'
    obtain ⟨⟨rfl, rfl⟩, hps⟩ : (front = front' ∧ back = back') ∧ p₀.parameters = p.parameters := by
      simpa using hframe.symm.trans hframe'
    rcases Outcome.mapM_eq_ok.mp hsample with _ | ⟨htext, ⟨⟩⟩
    refine ⟨_, htext, ?_⟩
    rw [← hsource, hps]
    exact congrArg (PreparedQuery.mk · p.parameters) hsql'
  · rintro ⟨text, htext, rfl⟩
    refine ⟨[text], Outcome.mapM_eq_ok.mpr (.cons htext .nil), settings, hsettings,
      front, back, hframe, ?_⟩
    exact (hsource text).symm

theorem sampleText_eq_ok_iff {e : Expr} {text : String} (hfold : e.fold? = some v) :
    sampleText e = .ok text ↔ isSampleSize v = true ∧ v.literal = text := by
  unfold sampleText
  rw [hfold]
  dsimp only
  split
  · rename_i hsize
    rw [and_iff_right hsize, Except.ok.injEq]
  · rename_i hsize
    exact iff_of_false nofun fun h => hsize h.1

/-! ## The law -/

/-- Where a query is in order without a sample, a number that the size folds to is taken exactly
where it is a size by its exact value, unless it is a decimal number that is rounded to one; and the
text behind the modifier, to the end of the line, denotes the number. -/
theorem sample_range_is_exact_iff {e : Expr} {p₀ : PreparedQuery} (hfold : e.fold? = some v)
    (hx : v.rational? = some x) (hmodel : t.model = none)
    (hplain : { q with sample := none }.prepare t = .ok p₀) :
    (((∃ p, { q with sample := some e }.prepare t = .ok p) ↔ IsExactSize v x) ↔
      ¬IsRoundedToOne v x) ∧
    ∀ p, { q with sample := some e }.prepare t = .ok p → p.parameters = p₀.parameters ∧
      ∃ front text back, p₀.sql = front ++ back ∧ OpensLine back ∧
        p.sql = front ++ " SAMPLE " ++ text ++ back ∧ Denotes text x := by
  obtain ⟨front, back, hsql, hback, hprepare⟩ := exists_prepare_sample hmodel hplain e
  have haccept : (∃ p, { q with sample := some e }.prepare t = .ok p) ↔
      IsExactSize v x ∨ IsRoundedToOne v x := by
    rw [← isSampleSize_iff hx]
    constructor
    · rintro ⟨p, hp⟩
      obtain ⟨text, htext, _⟩ := (hprepare p).mp hp
      exact ((sampleText_eq_ok_iff hfold).mp htext).1
    · intro hsize
      exact ⟨_, (hprepare _).mpr ⟨_, (sampleText_eq_ok_iff hfold).mpr ⟨hsize, rfl⟩, rfl⟩⟩
  constructor
  · have hdisjoint : IsRoundedToOne v x → ¬IsExactSize v x := by
      rintro ⟨⟨d, rfl⟩, hone, _⟩ hexact
      exact absurd hexact.2 (not_le.mpr hone)
    rw [haccept]
    tauto
  · intro p hp
    obtain ⟨text, htext, rfl⟩ := (hprepare p).mp hp
    obtain ⟨hsize, rfl⟩ := (sampleText_eq_ok_iff hfold).mp htext
    refine ⟨rfl, front, v.literal, back, hsql, hback, rfl, ?_⟩
    apply Value.denotes_literal hx
    rintro n rfl
    cases hsize

/-- A sum of decimal numbers is a size where the sum is one, and the filter and its parameter stay
as they are. -/
theorem sum_of_fractions_is_taken :
    let quarter := Expr.constant (.decimal ⟨false, 25, 2, by decide, by decide⟩)
    let half := Expr.constant (.decimal ⟨false, 5, 1, by decide, by decide⟩)
    let e := Expr.binary .add quarter half
    let v := Value.decimal ⟨false, 75, 2, by decide, by decide⟩
    let q : Select := {
      table := "T"
      filters := [.binary .gt (.column none "Id" .int32) (.parameter "least" .int32)]
      final := true }
    e.fold? = some v ∧ v.rational? = some (3 / 4) ∧
      ∃ p₀, q.prepare {} = .ok p₀ ∧ ∃ p, { q with sample := some e }.prepare {} = .ok p ∧
        p.parameters = p₀.parameters ∧ ∃ front text back, p₀.sql = front ++ back ∧ OpensLine back ∧
          p.sql = front ++ " SAMPLE " ++ text ++ back ∧ Denotes text (3 / 4) := by
  intro quarter half e v q
  have hfold : e.fold? = some v := rfl
  have hx : v.rational? = some (3 / 4) := congrArg some (by norm_num [Number.Decimal.units])
  have hplain : ∃ p₀, q.prepare {} = .ok p₀ := ⟨_, by rfl⟩
  obtain ⟨p₀, hp₀⟩ := hplain
  obtain ⟨hiff, htext⟩ := sample_range_is_exact_iff (q := q) hfold hx rfl hp₀
  have hexact : IsExactSize v (3 / 4) := by
    constructor <;> norm_num
  have hround : ¬IsRoundedToOne v (3 / 4) := by
    rintro ⟨_, hone, _⟩
    norm_num at hone
  obtain ⟨p, hp⟩ := (hiff.mpr hround).mpr hexact
  exact ⟨hfold, hx, p₀, hp₀, p, hp, htext p hp⟩

/-- The decimal number next to one is larger than one, and is taken and written as it is. -/
theorem number_above_one_is_taken :
    let v := Value.decimal ⟨false, 10000000000000000000000000001, 28, by decide, by decide⟩
    let x : ℚ := 1 + 1 / 10 ^ 28
    let q : Select := { table := "T", sample := some (.constant v) }
    v.rational? = some x ∧ ¬IsExactSize v x ∧
      q.prepare {} =
        .ok ⟨"SELECT *\nFROM \"T\" SAMPLE 1.0000000000000000000000000001", []⟩ := by
  intro v x q
  have hx : v.rational? = some x := congrArg some (by norm_num [Number.Decimal.units, x])
  refine ⟨hx, ?_, by decide +kernel⟩
  rintro ⟨_, hone⟩
  norm_num [x] at hone

end Select

end ColumnStore
