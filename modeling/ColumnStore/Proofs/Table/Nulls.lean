-- Which columns take the nulls that are let through to them. Whether a null is
-- let through is decided from a type and its options alone, what the column does
-- with it from the column type and the default that are written for it.
import ColumnStore.Proofs.Types.Wrapping
import ColumnStore.Table.Entity
import ColumnStore.Value.Basic

namespace ColumnStore

/-- Whether nulls are among the values that a column of the type stores. -/
def StoreType.storesNull : StoreType → Bool
  | nullable _ | lowCardinality (nullable _) => true
  | scalar name _ => name = "JSON"
  | _ => false

/-- The column stores nulls, or has a default that stands for them. -/
def ColumnDefinition.TakesNull (c : ColumnDefinition) : Prop :=
  c.type.storeType.storesNull = true ∨ ∃ e, c.fill = some (.default e)

/-! ## What a column type stores -/

namespace ValueType

variable {t : ValueType}

theorem eq_json_of_isJson (ht : t.isNullable = false) (h : t.isJson = true) : t = .json := by
  unfold isJson at h
  rw [underlying_of_isNullable_eq_false ht] at h
  cases t <;> first | rfl | cases h

theorem isJson_eq_false_of_allowsNullable (ht : t.isNullable = false)
    (h : t.allowsNullable = true) : t.isJson = false := by
  rw [Bool.eq_false_iff]
  intro hjson
  rw [eq_json_of_isJson ht hjson] at h
  cases h

theorem isJson_eq_false_of_allowsLowCardinality
    (h : t.underlying.allowsLowCardinality = true) : t.isJson = false := by
  unfold isJson
  cases hunderlying : t.underlying <;> first | rfl | (rw [hunderlying] at h; cases h)

/-- The normal form of a type that is not nullable is JSON for JSON alone. -/
theorem eq_json_of_normal_eq (ht : t.isNullable = false) (h : t.normal = .json) : t = .json := by
  cases t with
  | nullable => cases ht
  | _ => first | rfl | cases h

end ValueType

namespace StoreType

theorem value_of_storesNull {s : StoreType} (h : s.storesNull = true) :
    s.value.isNullable = true ∨ s.value = .json := by
  unfold storesNull at h
  split at h
  · exact Or.inl rfl
  · exact Or.inl rfl
  · rename_i name arguments
    obtain rfl := of_decide_eq_true h
    exact Or.inr rfl
  · cases h

theorem storesNull_eq_false_of_takesNullable {s : StoreType} (h : s.takesNullable = true) :
    s.storesNull = false := by
  cases s with
  | scalar name arguments => simpa [takesNullable, storesNull] using h
  | enumeration => rfl
  | _ => cases h

theorem storesNull_lowCardinality {s : StoreType} (h : ∀ x, s ≠ .nullable x) :
    (lowCardinality s).storesNull = false := by
  cases s with
  | nullable x => exact absurd rfl (h x)
  | _ => rfl

end StoreType

namespace TypeDefaults

open StoreType

variable {d : TypeDefaults} {o : TypeOptions} {t : ValueType} {s : StoreType}

theorem ne_nullable_of_storeType (ht : t.isNullable = false) (h : d.storeType o t = .ok s)
    (x : StoreType) : s ≠ .nullable x := by
  rintro rfl
  rw [isNullable_of_storeType h] at ht
  cases ht

/-- A type that is not nullable stores nulls only as JSON. -/
theorem storesNull_of_isNullable_eq_false (ht : t.isNullable = false)
    (h : d.storeType o t = .ok s) : s.storesNull = t.isJson := by
  have hvalue_eq := (stores_of_storeType h).value_eq
  cases hjson : t.isJson with
  | true =>
    obtain rfl := ValueType.eq_json_of_isJson ht hjson
    cases h
    rfl
  | false =>
    rw [Bool.eq_false_iff]
    intro hnull
    rcases value_of_storesNull hnull with hvalue | hvalue
    · rw [hvalue_eq, ValueType.isNullable_normal ht] at hvalue
      cases hvalue
    · rw [hvalue_eq] at hvalue
      rw [ValueType.eq_json_of_normal_eq ht hvalue] at hjson
      cases hjson

/-- A mapped type is nullable exactly where the type is nullable and allows it, and otherwise
stores nulls only as JSON. -/
theorem nullable_or_storesNull (h : d.storeType o t = .ok s) :
    (t.isNullable && t.underlying.allowsNullable) = true ∧ t.isJson = false ∧
        (∃ base, s = .nullable base) ∨
      (t.isNullable && t.underlying.allowsNullable) = false ∧ s.storesNull = t.isJson ∧
        ∀ x, s ≠ .nullable x := by
  by_cases ht : t.isNullable = true
  · obtain ⟨inner, rfl⟩ := ValueType.exists_eq_nullable ht
    obtain ⟨hinner, base, hbase, rfl⟩ := storeType_nullable h
    have hunderlying : inner.nullable.underlying = inner :=
      ValueType.underlying_of_isNullable_eq_false hinner
    rw [hunderlying]
    split
    · rename_i hallows
      have hjson := ValueType.isJson_eq_false_of_allowsNullable hinner hallows
      exact Or.inl ⟨hallows, hjson, base, rfl⟩
    · rename_i hallows
      rw [Bool.not_eq_true] at hallows
      have hjson : base.storesNull = inner.isJson := storesNull_of_isNullable_eq_false hinner hbase
      exact Or.inr ⟨hallows, hjson, ne_nullable_of_storeType hinner hbase⟩
  · rw [Bool.not_eq_true] at ht
    exact Or.inr ⟨by rw [ht, Bool.false_and], storesNull_of_isNullable_eq_false ht h,
      ne_nullable_of_storeType ht h⟩

/-- A column stores nulls as JSON, or in a nullable column that has no default for them. -/
theorem storesNull_columnType {c : ColumnType} (h : d.columnType o t = .ok c) :
    c.storeType.storesNull =
      (t.isJson || (t.isNullable && t.underlying.allowsNullable && o.defaultForNull.isNone)) := by
  obtain ⟨stored, hstored, hlow, hc⟩ := storeType_of_columnType h
  rcases nullable_or_storesNull hstored with ⟨hnullable, hjson, base, rfl⟩ | ⟨hnullable, hjson, hne⟩
  · rw [hnullable, hjson]
    rcases hc with ⟨_, heq, rfl⟩ | ⟨hpresent, _⟩
    · cases heq
      have htakes := takesNullable_of_maps_nullable ⟨t, hstored⟩
      have hbase := storesNull_eq_false_of_takesNullable htakes
      have hlowCardinality : (lowCardinality base).storesNull = false := by
        apply storesNull_lowCardinality
        rintro x rfl
        cases htakes
      cases o.defaultForNull <;> cases o.lowCardinality <;> first | rfl | assumption
    · exact absurd rfl (hpresent base)
  · rw [hnullable, Bool.false_and, Bool.or_false]
    rcases hc with ⟨base, rfl, _⟩ | ⟨_, rfl⟩
    · exact absurd rfl (hne base)
    · cases hlow' : o.lowCardinality with
      | false => exact hjson
      | true =>
        rw [ValueType.isJson_eq_false_of_allowsLowCardinality (hlow hlow')]
        exact storesNull_lowCardinality hne

end TypeDefaults

/-! ## What is let through, and what is written -/

theorem Value.validate_null_eq_ok {t : ValueType} {o : TypeOptions} :
    Value.null.validate t o = .ok () ↔
      t.isNullable = true ∨ t.isJson = true ∨ o.defaultForNull.isSome = true := by
  unfold validate
  rw [if_pos (show Value.null.isNull = true from rfl)]
  split
  · rename_i h
    simpa [or_assoc] using h
  · rename_i h
    simpa [or_assoc] using h

namespace Column

variable {c : Column} {d : TypeDefaults}

/-- A default is written for the column: its own one or, in a nullable column, the one that stands
for nulls. Neither is written behind another expression for the values. -/
def HasDefault (c : Column) : Prop :=
  c.materialized = none ∧ c.aliased = none ∧
    (c.default.isSome = true ∨ c.type.isNullable = true ∧ c.options.defaultForNull.isSome = true)

theorem fill?_eq_default_iff : (∃ e, c.fill? = some (.default e)) ↔ c.HasDefault := by
  unfold fill? HasDefault
  cases c.materialized <;> cases c.aliased <;> cases c.default <;>
    cases c.options.defaultForNull <;> cases c.type.isNullable <;> simp

theorem takesNull_iff {definition : ColumnDefinition} (h : c.define d = .ok definition) :
    definition.TakesNull ↔
      c.type.isJson = true ∨
        (c.type.isNullable = true ∧ c.type.underlying.allowsNullable = true ∧
          c.options.defaultForNull = none) ∨
        c.HasDefault := by
  obtain ⟨type, htype, rfl⟩ := Outcome.bind_pure_eq_ok.mp h
  unfold ColumnDefinition.TakesNull
  dsimp only
  rw [TypeDefaults.storesNull_columnType htype, fill?_eq_default_iff]
  simp [or_assoc, and_assoc]

/-! ## The law -/

/-- Where a null is let through the column takes it, exactly when the column is JSON, when a default
is written for it, or when no default stands for nulls and the column is not of a nullable
composite type. -/
theorem null_is_taken_iff {text : String} (h : c.definition d = .ok text) :
    ∃ definition, c.define d = .ok definition ∧ text = definition.render ∧
      ((Value.null.validate c.type c.options = .ok () → definition.TakesNull) ↔
        c.type.isJson = true ∨ c.HasDefault ∨
          (c.options.defaultForNull = none ∧
            (c.type.isNullable = true → c.type.underlying.allowsNullable = true))) := by
  obtain ⟨definition, hdefine, rfl⟩ := Outcome.bind_pure_eq_ok.mp h
  refine ⟨definition, hdefine, rfl, ?_⟩
  rw [Value.validate_null_eq_ok, takesNull_iff hdefine]
  constructor
  · intro htaken
    by_cases hdefault : c.options.defaultForNull = none
    · by_cases hnullable : c.type.isNullable = true
      · rcases htaken (Or.inl hnullable) with hjson | ⟨_, hallows, _⟩ | hhas
        · exact Or.inl hjson
        · exact Or.inr (Or.inr ⟨hdefault, fun _ => hallows⟩)
        · exact Or.inr (Or.inl hhas)
      · exact Or.inr (Or.inr ⟨hdefault, fun hnull => absurd hnull hnullable⟩)
    · rcases htaken (Or.inr (Or.inr (Option.isSome_iff_ne_none.mpr hdefault))) with
        hjson | ⟨_, _, hnone⟩ | hhas
      · exact Or.inl hjson
      · exact absurd hnone hdefault
      · exact Or.inr (Or.inl hhas)
  · rintro (hjson | hhas | ⟨hnone, hallows⟩) hvalid
    · exact Or.inl hjson
    · exact Or.inr (Or.inr hhas)
    · rcases hvalid with hnullable | hjson | hsome
      · exact Or.inr (Or.inl ⟨hnullable, hallows hnullable, hnone⟩)
      · exact Or.inl hjson
      · rw [hnone] at hsome
        cases hsome

/-- A nullable number takes nulls as the default that stands for them. -/
theorem null_is_taken_as_default :
    let c : Column :=
      { name := "Score", type := .nullable .int32, options := { defaultForNull := some "0" } }
    c.definition {} = .ok "\"Score\" Int32 DEFAULT 0" ∧
      Value.null.validate c.type c.options = .ok () ∧
      ∃ definition, c.define {} = .ok definition ∧ definition.TakesNull := by
  intro c
  have hdefinition : c.definition {} = .ok "\"Score\" Int32 DEFAULT 0" := by
    simp only [c]
    rfl
  have hvalid : Value.null.validate c.type c.options = .ok () :=
    Value.validate_null_eq_ok.mpr (Or.inl rfl)
  have hdefault : c.HasDefault := ⟨rfl, rfl, Or.inr ⟨rfl, rfl⟩⟩
  obtain ⟨definition, hdefine, _, hiff⟩ := null_is_taken_iff hdefinition
  exact ⟨hdefinition, hvalid, definition, hdefine, hiff.mpr (Or.inr (Or.inl hdefault)) hvalid⟩

/-- A number that is not nullable is let through as null for the sake of a default that is not
written, and a nullable array is let through although it is stored without nulls. -/
theorem null_is_let_through_untaken :
    let score : Column :=
      { name := "Score", type := .int32, options := { defaultForNull := some "0" } }
    let tags : Column := { name := "Tags", type := .nullable (.array .string) }
    (score.definition {} = .ok "\"Score\" Int32" ∧
      Value.null.validate score.type score.options = .ok () ∧
      ∃ definition, score.define {} = .ok definition ∧ ¬ definition.TakesNull) ∧
    (tags.definition {} = .ok "\"Tags\" Array(String)" ∧
      Value.null.validate tags.type tags.options = .ok () ∧
      ∃ definition, tags.define {} = .ok definition ∧ ¬ definition.TakesNull) := by
  intro score tags
  have hscore : Value.null.validate score.type score.options = .ok () :=
    Value.validate_null_eq_ok.mpr (Or.inr (Or.inr rfl))
  have htags : Value.null.validate tags.type tags.options = .ok () :=
    Value.validate_null_eq_ok.mpr (Or.inl rfl)
  simp only [score, tags] at hscore htags ⊢
  refine ⟨⟨rfl, hscore, _, rfl, ?_⟩, rfl, htags, _, rfl, ?_⟩
  · rintro (hstores | ⟨e, hfill⟩)
    · cases hstores
    · cases hfill
  · rintro (hstores | ⟨e, hfill⟩)
    · cases hstores
    · cases hfill

end Column

end ColumnStore
