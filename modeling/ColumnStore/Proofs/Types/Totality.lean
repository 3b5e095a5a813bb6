-- Which types have a column type. A type is mapped exactly where each part of
-- it, at any depth, is within the bounds of its own kind; the options of a
-- column bear on the parts that they are for and on nothing else.
import ColumnStore.Proofs.Types.Mapping
import Mathlib.Logic.Relation

namespace ColumnStore

/-! ## Bounds -/

/-- The places fit into the digits, and the digits into the type. -/
def DecimalStorage.InRange : DecimalStorage → Prop
  | precision digits scale => 1 ≤ digits ∧ digits ≤ 76 ∧ scale ≤ digits
  | decimal32 scale => scale ≤ 9
  | decimal64 scale => scale ≤ 18
  | decimal128 scale => scale ≤ 38
  | decimal256 scale => scale ≤ 76

/-- There are members, no more of them than two bytes have codes for, and the codes fit there. -/
structure Enumeration.IsNarrow (e : Enumeration) : Prop where
  nonempty : e.members ≠ []
  few : e.members.length ≤ 65536
  codes : ∀ m ∈ e.members, -32768 ≤ m.code.toInt ∧ m.code.toInt ≤ 32767

namespace TypeDefaults

/-- How decimals are stored under the options. -/
def decimalStorage (d : TypeDefaults) (o : TypeOptions) : DecimalStorage :=
  o.decimal.getD (.precision d.decimalPrecision d.decimalScale)

/-- How precisely moments are stored under the options. -/
def momentPrecision (d : TypeDefaults) (o : TypeOptions) : Nat :=
  o.timePrecision.getD d.timePrecision

end TypeDefaults

namespace ValueType

/-! ## Parts -/

/-- The direct parts of a type; the items of a long tuple are in one row. -/
def parts : ValueType → List ValueType
  | array element => [element]
  | map key value => [key, value]
  | tuple items => flattenItems items
  | nested _ fields => fields.map (·.2)
  | nullable inner => [inner]
  | _ => []

/-- The second type is the first one or stands in it, at any depth. -/
def Contains : ValueType → ValueType → Prop := Relation.ReflTransGen fun t x => x ∈ t.parts

theorem sizeOf_lt_of_mem_flattenItems {items : List ValueType} {x : ValueType}
    (h : x ∈ flattenItems items) : sizeOf x < sizeOf items := by
  fun_induction flattenItems items with
  | case1 a b c d e f g rest ih =>
    rcases List.mem_append.mp h with hfront | hrest
    · have hmem : x ∈ [a, b, c, d, e, f, g] ++ [tuple rest] := List.mem_append_left _ hfront
      exact List.sizeOf_lt_of_mem hmem
    · have := ih hrest
      simp only [List.cons.sizeOf_spec, tuple.sizeOf_spec]
      omega
  | case2 items => exact List.sizeOf_lt_of_mem h

theorem sizeOf_lt_of_mem_parts {t x : ValueType} (h : x ∈ t.parts) : sizeOf x < sizeOf t := by
  cases t with
  | array | nullable =>
    obtain rfl := List.mem_singleton.mp h
    simp
  | map key value =>
    rcases List.mem_pair.mp h with rfl | rfl
    · simp only [map.sizeOf_spec]
      omega
    · simp only [map.sizeOf_spec]
      omega
  | tuple items =>
    have := sizeOf_lt_of_mem_flattenItems h
    simp only [tuple.sizeOf_spec]
    omega
  | nested name fields =>
    obtain ⟨f, hf, rfl⟩ := List.mem_map.mp h
    have hfield := List.sizeOf_lt_of_mem hf
    have hpair : sizeOf f = 1 + sizeOf f.1 + sizeOf f.2 := rfl
    simp only [nested.sizeOf_spec]
    omega
  | _ => cases h

/-! ## Types that are mapped -/

/-- Every part of the type is within its bounds, and `LowCardinality` is asked for only where the
store has it. -/
structure IsMappable (d : TypeDefaults) (o : TypeOptions) (t : ValueType) : Prop where
  nullables : ∀ inner, t.Contains (nullable inner) → inner.isNullable = false
  keys : ∀ key value, t.Contains (map key value) → key.isNullable = false
  tuples : ∀ items, t.Contains (tuple items) → flattenItems items ≠ []
  records : ∀ name fields, t.Contains (nested name fields) → fields ≠ []
  enumerations : ∀ e, t.Contains (enumeration e) → e.IsNarrow
  known : ∀ name, ¬ t.Contains (other name)
  decimals : t.Contains decimal → (d.decimalStorage o).InRange
  moments : t.Contains dateTime ∨ t.Contains dateTimeOffset → d.momentPrecision o ≤ 9
  texts : t.Contains string → o.fixedLength ≠ some 0
  lowCardinality : o.lowCardinality = true →
    t.underlying ∈ [string, bytes, date, dateTime, dateTimeOffset] ∨
      (t.isNumeric = true ∧ t.underlying ≠ decimal ∧ t.underlying ≠ bigInteger)

/-- The outermost layer of the type is within its bounds. -/
def IsSound (d : TypeDefaults) (o : TypeOptions) : ValueType → Prop
  | nullable inner => inner.isNullable = false
  | map key _ => key.isNullable = false
  | tuple items => flattenItems items ≠ []
  | nested _ fields => fields ≠ []
  | enumeration e => e.IsNarrow
  | other _ => False
  | decimal => (d.decimalStorage o).InRange
  | dateTime | dateTimeOffset => d.momentPrecision o ≤ 9
  | string => o.fixedLength ≠ some 0
  | _ => True

theorem allowsLowCardinality_iff (t : ValueType) :
    t.underlying.allowsLowCardinality = true ↔
      t.underlying ∈ [string, bytes, date, dateTime, dateTimeOffset] ∨
        (t.isNumeric = true ∧ t.underlying ≠ decimal ∧ t.underlying ≠ bigInteger) := by
  unfold isNumeric isInteger isFractional
  cases t.underlying <;> simp [allowsLowCardinality]

end ValueType

/-! ## One layer -/

theorem Enumeration.fits_word_iff {e : Enumeration} :
    e.fits .word = true ↔ e.members.length ≤ 65536 ∧
      ∀ m ∈ e.members, -32768 ≤ m.code.toInt ∧ m.code.toInt ≤ 32767 := by
  unfold fits EnumWidth.capacity EnumWidth.holds
  simp only [Bool.and_eq_true, decide_eq_true_eq, List.all_eq_true]

/-- What fits into one byte fits into two. -/
theorem Enumeration.fits_word_of_fits_byte {e : Enumeration} (h : e.fits .byte = true) :
    e.fits .word = true := by
  unfold fits EnumWidth.capacity EnumWidth.holds at h
  simp only [Bool.and_eq_true, decide_eq_true_eq, List.all_eq_true] at h
  obtain ⟨hfew, hcodes⟩ := h
  rw [fits_word_iff]
  refine ⟨by omega, fun m hm => ?_⟩
  have := hcodes m hm
  omega

theorem Enumeration.exists_width?_iff {e : Enumeration} :
    (∃ w, e.width? = some w) ↔ e.fits .word = true := by
  unfold width?
  by_cases hbyte : e.fits .byte = true
  · simp [hbyte, fits_word_of_fits_byte hbyte]
  · by_cases hword : e.fits .word = true
    · simp [hbyte, hword]
    · simp [hbyte, hword]

namespace TypeDefaults

open ValueType

variable {d : TypeDefaults} {o : TypeOptions} {t : ValueType}

theorem exists_ite_refuse_iff {α : Type} {c : Prop} [Decidable c] {type : String}
    {cause : MappingCause} {act : Outcome α} :
    (∃ a, (if c then refuse type cause else act) = .ok a) ↔ ¬ c ∧ ∃ a, act = .ok a := by
  by_cases hc : c
  · simp [hc, refuse]
  · simp [hc]

theorem exists_pure {α : Type} (a : α) : ∃ b, (pure a : Outcome α) = .ok b := ⟨a, rfl⟩

theorem exists_pair_iff {α β γ : Type} {first : Outcome α} {second : Outcome β}
    {f : α → β → γ} :
    (∃ c, (do return f (← first) (← second) : Outcome γ) = .ok c) ↔
      (∃ a, first = .ok a) ∧ ∃ b, second = .ok b := by
  cases first with
  | error fault => simp [bind, Except.bind]
  | ok a => cases second <;> simp [bind, Except.bind, pure, Except.pure]

theorem exists_decimalType_iff :
    (∃ s, d.decimalType o = .ok s) ↔ (d.decimalStorage o).InRange := by
  have hprecision : ∀ digits scale, (∃ s, precisionType digits scale = .ok s) ↔
      (DecimalStorage.precision digits scale).InRange := by
    intro digits scale
    unfold precisionType DecimalStorage.InRange
    rw [exists_ite_refuse_iff, exists_ite_refuse_iff, iff_true_intro (exists_pure _), and_true,
      Bool.or_eq_true, decide_eq_true_eq, decide_eq_true_eq]
    omega
  have hfixed : ∀ name scale maximum, (∃ s, fixedScaleType name scale maximum = .ok s) ↔
      scale ≤ maximum := by
    intro name scale maximum
    unfold fixedScaleType
    rw [exists_ite_refuse_iff, iff_true_intro (exists_pure _), and_true, Nat.not_lt]
  unfold decimalType decimalStorage
  cases o.decimal with
  | none => exact hprecision _ _
  | some storage =>
    cases storage with
    | precision => exact hprecision _ _
    | decimal32 | decimal64 | decimal128 | decimal256 => exact hfixed _ _ _

theorem exists_timeType_iff {zone : Option String} :
    (∃ s, d.timeType o zone = .ok s) ↔ d.momentPrecision o ≤ 9 := by
  unfold timeType momentPrecision
  dsimp only
  rw [exists_ite_refuse_iff, iff_true_intro (exists_pure _), and_true, Nat.not_lt]

theorem exists_stringType_iff : (∃ s, stringType o = .ok s) ↔ o.fixedLength ≠ some 0 := by
  unfold stringType
  split
  · rename_i h
    exact iff_of_true (exists_pure _) (by simp [h])
  · rename_i h
    simp [h, refuse]
  · rename_i n hn h
    exact iff_of_true (exists_pure _) (by simpa [h] using hn)

theorem exists_enumType_iff {e : Enumeration} : (∃ s, enumType e = .ok s) ↔ e.IsNarrow := by
  have hnarrow : e.IsNarrow ↔ e.members ≠ [] ∧ ∃ w, e.width? = some w := by
    rw [Enumeration.exists_width?_iff, Enumeration.fits_word_iff]
    exact ⟨fun h => ⟨h.nonempty, h.few, h.codes⟩, fun ⟨hne, hfew, hcodes⟩ => ⟨hne, hfew, hcodes⟩⟩
  unfold enumType
  rw [hnarrow, exists_ite_refuse_iff, List.isEmpty_iff]
  cases e.width? with
  | none => simp [refuse]
  | some w => simp [exists_pure]

/-- A type is mapped where its outermost layer is within its bounds and its parts are mapped. -/
theorem exists_storeType_iff_layer :
    (∃ s, d.storeType o t = .ok s) ↔
      t.IsSound d o ∧ ∀ x ∈ t.parts, ∃ s, d.storeType o x = .ok s := by
  cases t with
  | decimal =>
    rw [storeType, exists_decimalType_iff, IsSound]
    simp [parts]
  | string =>
    rw [storeType, exists_stringType_iff, IsSound]
    simp [parts]
  | dateTime | dateTimeOffset =>
    rw [storeType, exists_timeType_iff, IsSound]
    simp [parts]
  | enumeration e =>
    rw [storeType, exists_enumType_iff, IsSound]
    simp [parts]
  | array element =>
    rw [storeType, Outcome.exists_bind_pure_eq_ok]
    simp [IsSound, parts]
  | map key value =>
    rw [storeType, exists_ite_refuse_iff, exists_pair_iff, IsSound, parts, Bool.not_eq_true]
    simp only [List.mem_cons, List.not_mem_nil, or_false, forall_eq_or_imp, forall_eq]
  | tuple items =>
    have hempty : items = [] ↔ flattenItems items = [] :=
      ⟨fun h => by simp [h, flattenItems], not_imp_not.mp flattenItems_ne_nil⟩
    rw [storeType, exists_ite_refuse_iff, Outcome.exists_bind_pure_eq_ok,
      itemTypes_eq_mapM_flattenItems, Outcome.exists_mapM_eq_ok, List.isEmpty_iff, hempty]
    rfl
  | nested name fields =>
    rw [storeType, exists_ite_refuse_iff, Outcome.exists_bind_pure_eq_ok, fieldTypes_eq_mapM,
      Outcome.exists_mapM_eq_ok, List.isEmpty_iff, IsSound, parts]
    simp only [Outcome.exists_bind_pure_eq_ok, List.forall_mem_map]
  | nullable inner =>
    rw [storeType, exists_ite_refuse_iff, Outcome.exists_bind_pure_eq_ok, IsSound, parts,
      Bool.not_eq_true, List.forall_mem_singleton]
  | other name => simp [storeType, refuse, IsSound]
  | _ => exact iff_of_true ⟨_, rfl⟩ ⟨trivial, List.forall_mem_nil _⟩

/-! ## Every layer -/

theorem exists_storeType_of_contains {x : ValueType} (h : ∃ s, d.storeType o t = .ok s)
    (hx : t.Contains x) : ∃ s, d.storeType o x = .ok s := by
  induction hx with
  | refl => exact h
  | tail _ hpart ih => exact (exists_storeType_iff_layer.mp ih).2 _ hpart

/-- A type is mapped where each part of it, at any depth, is within the bounds of its kind. -/
theorem exists_storeType_iff (d : TypeDefaults) (o : TypeOptions) (t : ValueType) :
    (∃ s, d.storeType o t = .ok s) ↔ ∀ x, t.Contains x → x.IsSound d o := by
  constructor
  · intro h x hx
    exact (exists_storeType_iff_layer.mp (exists_storeType_of_contains h hx)).1
  · intro hall
    rw [exists_storeType_iff_layer]
    refine ⟨hall t .refl, fun x hx => ?_⟩
    rw [exists_storeType_iff]
    exact fun y hy => hall y (.head hx hy)
termination_by sizeOf t
decreasing_by exact sizeOf_lt_of_mem_parts hx

theorem isMappable_iff : t.IsMappable d o ↔ (∀ x, t.Contains x → x.IsSound d o) ∧
    (o.lowCardinality = true → t.underlying.allowsLowCardinality = true) := by
  rw [allowsLowCardinality_iff]
  constructor
  · intro h
    refine ⟨fun x hx => ?_, h.lowCardinality⟩
    cases x with
    | nullable inner => exact h.nullables inner hx
    | map key value => exact h.keys key value hx
    | tuple items => exact h.tuples items hx
    | nested name fields => exact h.records name fields hx
    | enumeration e => exact h.enumerations e hx
    | other name => exact h.known name hx
    | decimal => exact h.decimals hx
    | dateTime => exact h.moments (Or.inl hx)
    | dateTimeOffset => exact h.moments (Or.inr hx)
    | string => exact h.texts hx
    | _ => trivial
  · rintro ⟨hsound, hlow⟩
    exact {
      nullables := fun _ hx => hsound _ hx
      keys := fun _ _ hx => hsound _ hx
      tuples := fun _ hx => hsound _ hx
      records := fun _ _ hx => hsound _ hx
      enumerations := fun _ hx => hsound _ hx
      known := fun _ hx => hsound _ hx
      decimals := fun hx => hsound _ hx
      moments := fun hx => hx.elim (hsound _) (hsound _)
      texts := fun hx => hsound _ hx
      lowCardinality := hlow }

/-- Around the mapped type, a column has only its own wrapper to refuse. -/
theorem exists_resolve_iff :
    (∃ text, d.resolve o t = .ok text) ↔ (∃ s, d.storeType o t = .ok s) ∧
      (o.lowCardinality = true → t.underlying.allowsLowCardinality = true) := by
  unfold resolve
  rw [Outcome.exists_bind_pure_eq_ok]
  constructor
  · rintro ⟨c, hc⟩
    obtain ⟨stored, hstored, hlow, _⟩ := storeType_of_columnType hc
    exact ⟨⟨stored, hstored⟩, hlow⟩
  · rintro ⟨⟨stored, hstored⟩, hlow⟩
    refine ⟨_, Outcome.bind_eq_ok.mpr ⟨stored, hstored, if_neg ?_⟩⟩
    rw [Bool.and_eq_true, Bool.not_eq_true']
    rintro ⟨hasked, hrefused⟩
    have hallowed := hlow hasked
    cases t with
    | nullable inner =>
      obtain ⟨hinner, _⟩ := storeType_nullable hstored
      rw [underlying, underlying_of_isNullable_eq_false hinner, hrefused] at hallowed
      cases hallowed
    | _ =>
      rw [underlying_of_isNullable_eq_false rfl, hrefused] at hallowed
      cases hallowed

/-! ## The law -/

/-- A type has a column type exactly where it is mappable. -/
theorem resolves_iff_isMappable (d : TypeDefaults) (o : TypeOptions) (t : ValueType) :
    (∃ text, d.resolve o t = .ok text) ↔ t.IsMappable d o := by
  rw [exists_resolve_iff, exists_storeType_iff, isMappable_iff]

end TypeDefaults

end ColumnStore
