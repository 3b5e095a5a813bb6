-- Where the wrappers of a column type stand. A mapped type is built layer by
-- layer from types that are mapped themselves, so what every layer keeps holds
-- at every depth; the column adds its own wrapper around the whole.
import ColumnStore.Proofs.Types.Mapping
import Mathlib.Logic.Relation

namespace ColumnStore

namespace StoreType

/-! ## Trees -/

/-- The direct parts of a type. -/
def parts : StoreType → List StoreType
  | scalar _ _ | enumeration _ _ => []
  | array element => [element]
  | map key value => [key, value]
  | tuple items => items
  | nested fields => fields.map (·.2)
  | nullable inner | lowCardinality inner => [inner]

/-- The second type is the first one or stands in it, at any depth. -/
def Contains : StoreType → StoreType → Prop := Relation.ReflTransGen fun t x => x ∈ t.parts

/-- The second type stands in the first one and is not the whole of it. -/
def Encloses : StoreType → StoreType → Prop := Relation.TransGen fun t x => x ∈ t.parts

/-- Whether the store has `Nullable` around the type. -/
def takesNullable : StoreType → Bool
  | scalar name _ => name ≠ "JSON"
  | enumeration _ _ => true
  | _ => false

/-- The wrappers stand where the store accepts them, and none hides in the text of a leaf. -/
structure WellWrapped (t : StoreType) : Prop where
  nullable : ∀ x, t.Contains (.nullable x) → x.takesNullable = true
  lowCardinality : ∀ x, ¬ t.Encloses (.lowCardinality x)
  keys : ∀ key value x, t.Contains (.map key value) → key ≠ .nullable x
  leaves : ∀ name arguments, t.Contains (.scalar name arguments) →
    (TypeText.scalar? name).isSome = true ∧ ∀ a ∈ arguments, IsScalarArgument a

end StoreType

namespace TypeDefaults

open StoreType

variable {d : TypeDefaults} {o : TypeOptions} {t : ValueType} {s x : StoreType}

/-! ## One layer -/

/-- Some type is mapped to the column type. -/
def Maps (d : TypeDefaults) (o : TypeOptions) (s : StoreType) : Prop :=
  ∃ t, d.storeType o t = .ok s

/-- The outermost layer of a mapped type, over types that are mapped themselves. -/
inductive Layer (d : TypeDefaults) (o : TypeOptions) : StoreType → Prop
  | scalar {name : String} {arguments : List String} : Layer d o (.scalar name arguments)
  | enumeration {width : EnumWidth} {members : List EnumMember} :
      Layer d o (.enumeration width members)
  | array {element : StoreType} (h : Maps d o element) : Layer d o (.array element)
  | map {key value : StoreType} (hkey : Maps d o key) (hvalue : Maps d o value) :
      Layer d o (.map key value)
  | tuple {items : List StoreType} (h : ∀ x ∈ items, Maps d o x) : Layer d o (.tuple items)
  | nested {fields : List (String × StoreType)} (h : ∀ f ∈ fields, Maps d o f.2) :
      Layer d o (.nested fields)
  | nullable {inner : StoreType} (h : Maps d o inner) : Layer d o (.nullable inner)

theorem layer_decimalType (h : d.decimalType o = .ok s) : Layer d o s := by
  have hprecision : ∀ precision scale, precisionType precision scale = .ok s → Layer d o s := by
    intro precision scale h
    unfold precisionType at h
    split_ifs at h
    · cases h
    · cases h
    · cases h
      exact .scalar
  have hfixed : ∀ name scale maximum, fixedScaleType name scale maximum = .ok s →
      Layer d o s := by
    intro name scale maximum h
    unfold fixedScaleType at h
    split_ifs at h
    · cases h
    · cases h
      exact .scalar
  unfold decimalType at h
  split at h
  · exact hprecision _ _ h
  · exact hprecision _ _ h
  all_goals exact hfixed _ _ _ h

theorem layer_timeType {zone : Option String} (h : d.timeType o zone = .ok s) : Layer d o s := by
  unfold timeType at h
  dsimp only at h
  split_ifs at h
  · cases h
  · cases h
    exact .scalar

theorem layer_stringType (h : stringType o = .ok s) : Layer d o s := by
  unfold stringType at h
  split at h
  · cases h
    exact .scalar
  · cases h
  · cases h
    exact .scalar

theorem layer_enumType {e : Enumeration} (h : enumType e = .ok s) : Layer d o s := by
  unfold enumType at h
  split at h
  · cases h
  · split at h
    · cases h
    · cases h
      exact .enumeration

theorem maps_itemTypes {eight : Bool} : (items : List ValueType) → ∀ {stored},
    d.itemTypes o eight items = .ok stored → ∀ x ∈ stored, Maps d o x
  | [], _, h => by
    cases h
    simp
  | item :: items, _, h => by
    unfold itemTypes at h
    split at h
    · contradiction
    · rename_i rest heq
      obtain ⟨rfl, rfl⟩ := List.cons.inj heq
      split at h
      · exact maps_itemTypes rest h
      · obtain ⟨first, hfirst, rfl⟩ := Outcome.bind_pure_eq_ok.mp h
        simpa using ⟨_, hfirst⟩
    · rename_i heq
      obtain ⟨rfl, rfl⟩ := List.cons.inj heq
      obtain ⟨first, hfirst, h⟩ := Outcome.bind_eq_ok.mp h
      obtain ⟨rest, hrest, rfl⟩ := Outcome.bind_pure_eq_ok.mp h
      rw [List.forall_mem_cons]
      exact ⟨⟨_, hfirst⟩, maps_itemTypes items hrest⟩

theorem maps_fieldTypes : (fields : List (String × ValueType)) → ∀ {stored},
    d.fieldTypes o fields = .ok stored → ∀ f ∈ stored, Maps d o f.2
  | [], _, h => by
    cases h
    simp
  | (name, type) :: fields, _, h => by
    rw [fieldTypes] at h
    obtain ⟨first, hfirst, h⟩ := Outcome.bind_eq_ok.mp h
    obtain ⟨rest, hrest, rfl⟩ := Outcome.bind_pure_eq_ok.mp h
    rw [List.forall_mem_cons]
    exact ⟨⟨_, hfirst⟩, maps_fieldTypes fields hrest⟩

theorem layer_of_isNullable_eq_false (ht : t.isNullable = false)
    (h : d.storeType o t = .ok s) : Layer d o s := by
  cases t with
  | decimal => exact layer_decimalType h
  | string => exact layer_stringType h
  | dateTime | dateTimeOffset => exact layer_timeType h
  | enumeration e => exact layer_enumType h
  | array element =>
    obtain ⟨s, hs, rfl⟩ := Outcome.bind_pure_eq_ok.mp h
    exact .array ⟨element, hs⟩
  | map key value =>
    rw [storeType] at h
    split at h
    · cases h
    · obtain ⟨k, hk, h⟩ := Outcome.bind_eq_ok.mp h
      obtain ⟨v, hv, rfl⟩ := Outcome.bind_pure_eq_ok.mp h
      exact .map ⟨key, hk⟩ ⟨value, hv⟩
  | tuple items =>
    rw [storeType] at h
    split at h
    · cases h
    · obtain ⟨ss, hss, rfl⟩ := Outcome.bind_pure_eq_ok.mp h
      exact .tuple (maps_itemTypes items hss)
  | nested name fields =>
    rw [storeType] at h
    split at h
    · cases h
    · obtain ⟨ss, hss, rfl⟩ := Outcome.bind_pure_eq_ok.mp h
      exact .nested (maps_fieldTypes fields hss)
  | nullable inner => cases ht
  | other name => cases h
  | _ =>
    cases h
    exact .scalar

theorem layer_of_maps (h : Maps d o s) : Layer d o s := by
  obtain ⟨t, h⟩ := h
  by_cases ht : t.isNullable = true
  · obtain ⟨inner, rfl⟩ := ValueType.exists_eq_nullable ht
    obtain ⟨hinner, base, hbase, rfl⟩ := storeType_nullable h
    split
    · exact .nullable ⟨inner, hbase⟩
    · exact layer_of_isNullable_eq_false hinner hbase
  · exact layer_of_isNullable_eq_false (Bool.eq_false_iff.mpr ht) h

/-! ## Every layer -/

/-- The parts of a mapped type are mapped types. -/
theorem maps_of_mem_parts (h : Maps d o s) (hx : x ∈ s.parts) : Maps d o x := by
  cases layer_of_maps h with
  | scalar | enumeration => cases hx
  | array hpart | nullable hpart =>
    obtain rfl := List.mem_singleton.mp hx
    exact hpart
  | map hkey hvalue =>
    rcases List.mem_pair.mp hx with rfl | rfl
    · exact hkey
    · exact hvalue
  | tuple hitems => exact hitems x hx
  | nested hfields =>
    obtain ⟨f, hf, rfl⟩ := List.mem_map.mp hx
    exact hfields f hf

theorem maps_of_contains (h : Maps d o s) (hx : s.Contains x) : Maps d o x := by
  induction hx with
  | refl => exact h
  | tail _ hpart ih => exact maps_of_mem_parts ih hpart

/-- `LowCardinality` is never the mapping's own doing. -/
theorem not_maps_lowCardinality : ¬ Maps d o (.lowCardinality x) :=
  fun h => nomatch layer_of_maps h

theorem wellFormed_of_maps (h : Maps d o s) : s.WellFormed (fun _ => True) (fun _ => True) := by
  obtain ⟨t, h⟩ := h
  exact (stores_of_storeType h).wellFormed

theorem takesNullable_of_maps_nullable (h : Maps d o (.nullable x)) : x.takesNullable = true := by
  have hlayer := layer_of_maps (maps_of_mem_parts h (List.mem_singleton_self x))
  cases wellFormed_of_maps h with
  | nullable present allowed =>
    cases hlayer with
    | @scalar name arguments =>
      rw [takesNullable, decide_eq_true_eq]
      rintro rfl
      cases allowed
    | enumeration => rfl
    | array | map | tuple | nested => cases allowed
    | nullable => cases present

/-- At every depth of a mapped type the wrappers are where they have to be. -/
theorem wellWrapped_of_maps (h : Maps d o s) : s.WellWrapped where
  nullable x hx := takesNullable_of_maps_nullable (maps_of_contains h hx)
  lowCardinality x hx := not_maps_lowCardinality (maps_of_contains h hx.to_reflTransGen)
  keys key value x hx := by
    rintro rfl
    cases wellFormed_of_maps (maps_of_contains h hx) with
    | map present => cases present
  leaves name arguments hx := by
    cases wellFormed_of_maps (maps_of_contains h hx) with
    | scalar _ known written => exact ⟨known ▸ rfl, written⟩

/-! ## The column's own wrapper -/

theorem contains_of_encloses_lowCardinality (h : (lowCardinality s).Encloses x) :
    s.Contains x := by
  obtain ⟨y, hy, hx⟩ := Relation.TransGen.head'_iff.mp h
  obtain rfl := List.mem_singleton.mp hy
  exact hx

theorem contains_lowCardinality (h : (lowCardinality s).Contains x) :
    x = .lowCardinality s ∨ s.Contains x := by
  rcases Relation.reflTransGen_iff_eq_or_transGen.mp h with heq | h
  · exact Or.inl heq
  · exact Or.inr (contains_of_encloses_lowCardinality h)

/-- `LowCardinality` may stand around any mapped type as the last wrapper. -/
theorem wellWrapped_lowCardinality (h : Maps d o s) : (lowCardinality s).WellWrapped := by
  have hinner := wellWrapped_of_maps h
  refine ⟨fun x hx => ?_, fun x hx => ?_, fun key value x hx => ?_, fun name arguments hx => ?_⟩
  · rcases contains_lowCardinality hx with heq | hx
    · cases heq
    · exact hinner.nullable x hx
  · exact not_maps_lowCardinality (maps_of_contains h (contains_of_encloses_lowCardinality hx))
  · rcases contains_lowCardinality hx with heq | hx
    · cases heq
    · exact hinner.keys key value x hx
  · rcases contains_lowCardinality hx with heq | hx
    · cases heq
    · exact hinner.leaves name arguments hx

/-- The type below `LowCardinality` is mapped, and nullable only where no default stands for
nulls. -/
theorem maps_of_columnType {c : ColumnType} (h : d.columnType o t = .ok c) :
    Maps d o (if c.nullable then .nullable c.base else c.base) ∧
      (c.nullable = true → o.defaultForNull = none) ∧ ∀ x, c.base ≠ .nullable x := by
  obtain ⟨stored, hstored, _, hc⟩ := storeType_of_columnType h
  have hmaps : Maps d o stored := ⟨t, hstored⟩
  rcases hc with ⟨base, rfl, rfl⟩ | ⟨hpresent, rfl⟩
  · have hbase : Maps d o base := maps_of_mem_parts hmaps (List.mem_singleton_self base)
    have hpresent : ∀ x, base ≠ .nullable x := by
      rintro x rfl
      cases takesNullable_of_maps_nullable hmaps
    cases o.defaultForNull with
    | none => exact ⟨hmaps, fun _ => rfl, hpresent⟩
    | some value => exact ⟨hbase, nofun, hpresent⟩
  · exact ⟨hmaps, nofun, hpresent⟩

/-! ## The law -/

/-- Every column type has its wrappers where the store accepts them: `Nullable` around simple types
alone, `LowCardinality` around everything and nowhere else, no nullable keys. Where a default stands
for nulls the column is not nullable. -/
theorem resolved_type_is_well_wrapped {text : String} (h : d.resolve o t = .ok text) :
    ∃ c, d.columnType o t = .ok c ∧ text = c.storeType.render ∧ c.storeType.WellWrapped ∧
      (o.defaultForNull.isSome = true → ∀ x,
        c.storeType ≠ .nullable x ∧ c.storeType ≠ .lowCardinality (.nullable x)) := by
  obtain ⟨c, hc, rfl⟩ := Outcome.bind_pure_eq_ok.mp h
  obtain ⟨hmaps, hdefault, hpresent⟩ := maps_of_columnType hc
  refine ⟨c, hc, rfl, ?_, fun hsome x => ?_⟩
  · unfold ColumnType.storeType
    dsimp only
    split
    · exact wellWrapped_lowCardinality hmaps
    · exact wellWrapped_of_maps hmaps
  · have hnullable : c.nullable = false := by
      rw [Bool.eq_false_iff]
      intro hnullable
      rw [hdefault hnullable] at hsome
      cases hsome
    simp only [ColumnType.storeType, hnullable, Bool.false_eq_true, if_false] at hmaps ⊢
    split
    · exact ⟨nofun, fun heq => hpresent x (lowCardinality.inj heq)⟩
    · exact ⟨hpresent x, fun heq => not_maps_lowCardinality (heq ▸ hmaps)⟩

/-- Nulls of numbers in a tuple in a map are wrapped, those of a list of documents and of the map
itself are not. -/
theorem nested_nulls_are_well_wrapped :
    let t := ValueType.nullable (.map .string (.tuple [.nullable .int32,
      .nullable (.array (.nullable .json))]))
    let o : TypeOptions := { defaultForNull := some "map()" }
    let text := "Map(String, Tuple(Nullable(Int32), Array(JSON)))"
    TypeDefaults.resolve {} o t = .ok text ∧
      ∃ c, TypeDefaults.columnType {} o t = .ok c ∧ text = c.storeType.render ∧
        c.storeType.WellWrapped ∧
        ∀ x, c.storeType ≠ .nullable x ∧ c.storeType ≠ .lowCardinality (.nullable x) := by
  intro t o text
  have hresolve : TypeDefaults.resolve {} o t = .ok text := rfl
  obtain ⟨c, hc, htext, hwrapped, hdefault⟩ := resolved_type_is_well_wrapped hresolve
  exact ⟨hresolve, c, hc, htext, hwrapped, hdefault rfl⟩

end TypeDefaults

end ColumnStore
