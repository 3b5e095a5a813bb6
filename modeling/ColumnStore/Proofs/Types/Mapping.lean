-- What the mapping of value types gives. Every column type that it gives is
-- well formed, and holds the values of the normal form of the type that it was
-- given: what is left of a value type where the store keeps it.
import ColumnStore.Proofs.Query.Success
import ColumnStore.Types.ColumnType
import ColumnStore.Types.Reading
import Mathlib.Tactic.SplitIfs

namespace ColumnStore

/-! ## Names inside a type -/

namespace ValueType

mutual

/-- The names of the members of every enumeration in the type. -/
def memberNames : ValueType → List String
  | enumeration e => e.members.map (·.name)
  | array element => element.memberNames
  | map key value => key.memberNames ++ value.memberNames
  | tuple items => memberNamesAll items
  | nested _ fields => memberNamesFields fields
  | nullable inner => inner.memberNames
  | _ => []

def memberNamesAll : List ValueType → List String
  | [] => []
  | t :: ts => t.memberNames ++ memberNamesAll ts

def memberNamesFields : List (String × ValueType) → List String
  | [] => []
  | (_, t) :: fs => t.memberNames ++ memberNamesFields fs

end

mutual

/-- The names of the fields of every record in the type. -/
def fieldNames : ValueType → List String
  | array element => element.fieldNames
  | map key value => key.fieldNames ++ value.fieldNames
  | tuple items => fieldNamesAll items
  | nested _ fields => fieldNamesFields fields
  | nullable inner => inner.fieldNames
  | _ => []

def fieldNamesAll : List ValueType → List String
  | [] => []
  | t :: ts => t.fieldNames ++ fieldNamesAll ts

def fieldNamesFields : List (String × ValueType) → List String
  | [] => []
  | (name, t) :: fs => name :: (t.fieldNames ++ fieldNamesFields fs)

end

theorem fieldNamesAll_eq_flatMap (items : List ValueType) :
    fieldNamesAll items = items.flatMap fieldNames := by
  induction items with
  | nil => rfl
  | cons t ts ih => rw [fieldNamesAll, ih, List.flatMap_cons]

theorem fieldNamesFields_eq_flatMap (fields : List (String × ValueType)) :
    fieldNamesFields fields = fields.flatMap fun f => f.1 :: f.2.fieldNames := by
  induction fields with
  | nil => rfl
  | cons f fs ih => rw [fieldNamesFields, ih, List.flatMap_cons]; rfl

mutual

/-- The type with other names for the members of its enumerations and the fields of its records. -/
def rename (member field : String → String) : ValueType → ValueType
  | enumeration e => enumeration ⟨e.name, e.members.map fun m => { m with name := member m.name }⟩
  | array element => array (element.rename member field)
  | map key value => map (key.rename member field) (value.rename member field)
  | tuple items => tuple (renameAll member field items)
  | nested name fields => nested name (renameFields member field fields)
  | nullable inner => nullable (inner.rename member field)
  | t => t

def renameAll (member field : String → String) : List ValueType → List ValueType
  | [] => []
  | t :: ts => t.rename member field :: renameAll member field ts

def renameFields (member field : String → String) :
    List (String × ValueType) → List (String × ValueType)
  | [] => []
  | (name, t) :: fs => (field name, t.rename member field) :: renameFields member field fs

end

theorem renameAll_eq_map (member field : String → String) (items : List ValueType) :
    renameAll member field items = items.map (rename member field) := by
  induction items with
  | nil => rfl
  | cons t ts ih => rw [renameAll, ih, List.map_cons]

theorem renameFields_eq_map (member field : String → String) (fields : List (String × ValueType)) :
    renameFields member field fields =
      fields.map fun f => (field f.1, f.2.rename member field) := by
  induction fields with
  | nil => rfl
  | cons f fs ih => rw [renameFields, ih, List.map_cons]

theorem map_eq_self_iff {α : Type} {f : α → α} {xs : List α} :
    xs.map f = xs ↔ ∀ x ∈ xs, f x = x := by
  simpa using List.map_inj_left (l := xs) (f := f) (g := id)

/-- Members whose names stay as they are stay as they are. -/
theorem map_members_eq_self {f : String → String} {members : List EnumMember}
    (h : ∀ m ∈ members, f m.name = m.name) :
    members.map (fun m => { m with name := f m.name }) = members :=
  map_eq_self_iff.mpr fun m hm => by rw [h m hm]

theorem isNullable_rename (t : ValueType) (f g : String → String) :
    (t.rename f g).isNullable = t.isNullable := by
  cases t <;> rfl

theorem allowsNullable_rename (t : ValueType) (f g : String → String) :
    (t.rename f g).allowsNullable = t.allowsNullable := by
  cases t <;> rfl

/-- How wide the codes are stored does not depend on the names. -/
theorem width?_rename (e : Enumeration) (f : String → String) :
    (Enumeration.mk e.name (e.members.map fun m => { m with name := f m.name })).width? =
      e.width? := by
  simp [Enumeration.width?, Enumeration.fits, List.all_map, Function.comp_def]

/-! ## The normal form -/

mutual

/-- The type as the store keeps it: bytes as text, every moment as a moment of the store,
enumerations and records under the store's names, the items of a long tuple in one row, and
nulls where the store has them. -/
def normal : ValueType → ValueType
  | bytes => string
  | dateTimeOffset => dateTime
  | enumeration e => enumeration (e.width?.elim e fun w => ⟨w.typeName, e.members⟩)
  | array element => array element.normal
  | map key value => map key.normal value.normal
  | tuple items => tuple (normalItems (items.length == 8) items)
  | nested _ fields => nested "Nested" (normalFields fields)
  | nullable inner => if inner.allowsNullable then nullable inner.normal else inner.normal
  | t => t

/-- The items of a tuple. Of eight items, a tuple in the last place continues them. -/
def normalItems (eight : Bool) : List ValueType → List ValueType
  | [] => []
  | [tuple rest] =>
    if eight then normalItems (rest.length == 8) rest
    else [tuple (normalItems (rest.length == 8) rest)]
  | item :: items => item.normal :: normalItems eight items

def normalFields : List (String × ValueType) → List (String × ValueType)
  | [] => []
  | (name, t) :: fs => (name, t.normal) :: normalFields fs

end

theorem normalFields_eq_map (fields : List (String × ValueType)) :
    normalFields fields = fields.map fun f => (f.1, f.2.normal) := by
  induction fields with
  | nil => rfl
  | cons f fs ih => rw [normalFields, ih, List.map_cons]

/-- The type of a column: nulls that are stored as a default are no values of it. -/
def withDefault (o : TypeOptions) : ValueType → ValueType
  | nullable inner => if o.defaultForNull.isSome then inner else nullable inner
  | t => t

/-- No tuple in the last of eight places continues the items. -/
def IsRow (eight : Bool) (items : List ValueType) : Prop :=
  eight = true → ∀ rest, items.getLast? ≠ some (tuple rest)

theorem IsRow.tail {eight : Bool} {item : ValueType} {items : List ValueType}
    (h : IsRow eight (item :: items)) : IsRow eight items := by
  intro height rest hlast
  apply h height rest
  cases items with
  | nil => cases hlast
  | cons next items => exact hlast

/-- Items that are left as they are when they are flattened are a row. -/
theorem isRow_of_not_continued {items : List ValueType}
    (h : ∀ a b c d e f g rest, items = [a, b, c, d, e, f, g, tuple rest] → False) :
    IsRow (items.length == 8) items := by
  intro height rest hlast
  obtain ⟨front, rfl⟩ := List.getLast?_eq_some_iff.mp hlast
  simp at height
  match front, height with
  | [a, b, c, d, e, f, g], _ => exact h a b c d e f g rest rfl

theorem normalItems_eq_map {eight : Bool} {items : List ValueType} (h : IsRow eight items) :
    normalItems eight items = items.map normal := by
  induction items with
  | nil => rfl
  | cons item items ih =>
    unfold normalItems
    split
    · contradiction
    · rename_i rest heq
      obtain ⟨rfl, rfl⟩ := List.cons.inj heq
      cases eight
      · simp [normal]
      · exact absurd rfl (h rfl rest)
    · rename_i item' items' _ heq
      obtain ⟨rfl, rfl⟩ := List.cons.inj heq
      rw [List.map_cons, ih h.tail]

theorem flattenItems_ne_nil {items : List ValueType} (h : items ≠ []) :
    flattenItems items ≠ [] := by
  fun_cases flattenItems items with
  | case1 => simp
  | case2 => exact h

/-- Items that are flattened to one item were that item. -/
theorem eq_singleton_of_flattenItems {items : List ValueType} {t : ValueType}
    (h : flattenItems items = [t]) : items = [t] := by
  unfold flattenItems at h
  split at h
  · simp at h
  · exact h

/-- A tuple has the normal forms of its items, in their order and in one row. -/
theorem normal_tuple (items : List ValueType) :
    (tuple items).normal = tuple ((flattenItems items).map normal) := by
  rw [normal]
  congr
  fun_induction flattenItems items with
  | case1 a b c d e f g rest ih =>
    rw [List.map_append, ← ih]
    simp [normalItems]
  | case2 items hcontinued => exact normalItems_eq_map (isRow_of_not_continued hcontinued)

theorem underlying_of_isNullable_eq_false {t : ValueType} (h : t.isNullable = false) :
    t.underlying = t := by
  cases t
  case nullable => cases h
  all_goals rfl

theorem exists_eq_nullable {t : ValueType} (h : t.isNullable = true) :
    ∃ inner, t = .nullable inner := by
  cases t <;> first | exact ⟨_, rfl⟩ | cases h

theorem isNullable_normal {t : ValueType} (h : t.isNullable = false) :
    t.normal.isNullable = false := by
  cases t <;> first | rfl | cases h

theorem allowsNullable_normal {t : ValueType} (h : t.isNullable = false) :
    t.normal.allowsNullable = t.allowsNullable := by
  cases t <;> first | rfl | cases h

end ValueType

/-! ## Well-formed column types -/

namespace StoreType

mutual

/-- The type of the values that are read from a column of the type. -/
def value : StoreType → ValueType
  | scalar name _ => (TypeText.scalar? name).getD (.other name)
  | enumeration width members => .enumeration ⟨width.typeName, members⟩
  | array element => .array element.value
  | map key value => .map key.value value.value
  | tuple items => .tuple (valueAll items)
  | nested fields => .nested "Nested" (valueFields fields)
  | nullable inner => .nullable inner.value
  | lowCardinality inner => inner.value

def valueAll : List StoreType → List ValueType
  | [] => []
  | t :: ts => t.value :: valueAll ts

def valueFields : List (String × StoreType) → List (String × ValueType)
  | [] => []
  | (name, t) :: fs => (name, t.value) :: valueFields fs

end

/-- An argument of a scalar type: a plain word, perhaps with a value, or a string literal. -/
def IsScalarArgument (a : String) : Prop :=
  (∀ c ∈ a.toList, Text.isNameChar c = true ∨ c = '=') ∨ ∃ s, a = Text.literal s

/-- A column type that the store accepts, where the names of enumeration members and of record
fields are as they have to be. -/
inductive WellFormed (member field : String → Prop) : StoreType → Prop
  | scalar {name : String} {arguments : List String} {t : ValueType}
      (plain : Text.isPlainName name = true) (known : TypeText.scalar? name = some t)
      (written : ∀ a ∈ arguments, IsScalarArgument a) :
      WellFormed member field (.scalar name arguments)
  | enumeration {width : EnumWidth} {members : List EnumMember} (nonempty : members ≠ [])
      (narrow : (Enumeration.mk width.typeName members).width? = some width)
      (named : ∀ m ∈ members, member m.name) :
      WellFormed member field (.enumeration width members)
  | array {element : StoreType} (h : WellFormed member field element) :
      WellFormed member field (.array element)
  | map {key value : StoreType} (present : key.value.isNullable = false)
      (hkey : WellFormed member field key) (hvalue : WellFormed member field value) :
      WellFormed member field (.map key value)
  | tuple {items : List StoreType} (nonempty : items ≠ [])
      (h : ∀ t ∈ items, WellFormed member field t) : WellFormed member field (.tuple items)
  | nested {fields : List (String × StoreType)} (nonempty : fields ≠ [])
      (named : ∀ f ∈ fields, field f.1) (h : ∀ f ∈ fields, WellFormed member field f.2) :
      WellFormed member field (.nested fields)
  | nullable {inner : StoreType} (present : inner.value.isNullable = false)
      (allowed : inner.value.allowsNullable = true) (h : WellFormed member field inner) :
      WellFormed member field (.nullable inner)
  | lowCardinality {inner : StoreType} (h : WellFormed member field inner) :
      WellFormed member field (.lowCardinality inner)

theorem valueAll_eq_map (items : List StoreType) : valueAll items = items.map value := by
  induction items with
  | nil => rfl
  | cons t ts ih => rw [valueAll, ih, List.map_cons]

theorem valueFields_eq_map (fields : List (String × StoreType)) :
    valueFields fields = fields.map fun f => (f.1, f.2.value) := by
  induction fields with
  | nil => rfl
  | cons f fs ih => rw [valueFields, ih, List.map_cons]

theorem WellFormed.imp {member member' field field' : String → Prop} {t : StoreType}
    (h : t.WellFormed member field) (hmember : ∀ n, member n → member' n)
    (hfield : ∀ n, field n → field' n) : t.WellFormed member' field' := by
  induction h with
  | scalar plain known written => exact .scalar plain known written
  | enumeration nonempty narrow named =>
    exact .enumeration nonempty narrow fun m hm => hmember _ (named m hm)
  | array _ ih => exact .array ih
  | map present _ _ ihkey ihvalue => exact .map present ihkey ihvalue
  | tuple nonempty _ ih => exact .tuple nonempty ih
  | nested nonempty named _ ih => exact .nested nonempty (fun f hf => hfield _ (named f hf)) ih
  | nullable present allowed _ ih => exact .nullable present allowed ih
  | lowCardinality _ ih => exact .lowCardinality ih

/-- A scalar type has no names in it. -/
theorem rename_of_scalar? {name : String} {t : ValueType} (h : TypeText.scalar? name = some t)
    (member field : String → String) : t.rename member field = t := by
  unfold TypeText.scalar? at h
  split at h <;> cases h <;> rfl

/-- Changing names that have to be as they are changes nothing. -/
theorem rename_value {member field : String → Prop} {t : StoreType} {f g : String → String}
    (h : t.WellFormed member field) (hf : ∀ n, member n → f n = n) (hg : ∀ n, field n → g n = n) :
    t.value.rename f g = t.value := by
  induction h with
  | scalar _ known _ =>
    rw [value, known]
    exact rename_of_scalar? known f g
  | @enumeration width members _ _ named =>
    rw [value, ValueType.rename, ValueType.map_members_eq_self fun m hm => hf _ (named m hm)]
  | array _ ih => rw [value, ValueType.rename, ih]
  | map _ _ _ ihkey ihvalue => rw [value, ValueType.rename, ihkey, ihvalue]
  | tuple _ _ ih =>
    rw [value, ValueType.rename, valueAll_eq_map, ValueType.renameAll_eq_map, List.map_map]
    exact congrArg _ (List.map_congr_left fun t ht => ih t ht)
  | nested _ named _ ih =>
    rw [value, ValueType.rename, valueFields_eq_map, ValueType.renameFields_eq_map, List.map_map]
    refine congrArg _ (List.map_congr_left fun f hf' => ?_)
    rw [Function.comp, hg _ (named f hf'), ih f hf']
  | nullable _ _ _ ih => rw [value, ValueType.rename, ih]
  | lowCardinality _ ih => exact ih

/-- Where the type is well formed, and holds the values of the normal form. -/
structure Stores (member field : String → Prop) (stored : StoreType) (t : ValueType) : Prop where
  wellFormed : stored.WellFormed member field
  value_eq : stored.value = t.normal

end StoreType

/-! ## What the mapping gives -/

namespace TypeDefaults

open StoreType

variable {member field : String → Prop} {d : TypeDefaults} {o : TypeOptions}

/-- A number, perhaps behind a word that it is the value of. -/
theorem isScalarArgument_number {word : String}
    (hword : (word.toList.all fun c => Text.isNameChar c || c == '=') = true) (n : Nat) :
    IsScalarArgument (word ++ toString n) := by
  refine Or.inl fun c hc => ?_
  rw [String.toList_append, List.mem_append] at hc
  rcases hc with hc | hc
  · simpa using List.all_eq_true.mp hword c hc
  · have hdigits : (toString n).toList = Nat.toDigits 10 n := by simp
    rw [hdigits] at hc
    have hdigit : c.isDigit = true := Nat.isDigit_of_mem_toDigits (by decide) (by decide) hc
    simp [Text.isNameChar, Char.isAlphanum, hdigit]

theorem isScalarArgument_toString (n : Nat) : IsScalarArgument (toString n) := by
  have h : IsScalarArgument ("" ++ toString n) := isScalarArgument_number (by simp) n
  rwa [String.empty_append] at h

theorem stores_scalar {name : String} {arguments : List String} {t : ValueType}
    (plain : Text.isPlainName name = true) (known : TypeText.scalar? name = some t.normal)
    (written : ∀ a ∈ arguments, IsScalarArgument a) :
    Stores member field (.scalar name arguments) t :=
  ⟨.scalar plain known written, by rw [value, known, Option.getD_some]⟩

/-- A name with numbers for arguments, or with none. -/
theorem stores_numbers {name : String} {t : ValueType} (numbers : List Nat)
    (plain : Text.isPlainName name = true) (known : TypeText.scalar? name = some t.normal) :
    Stores member field (.scalar name (numbers.map toString)) t := by
  refine stores_scalar plain known fun a ha => ?_
  obtain ⟨n, _, rfl⟩ := List.mem_map.mp ha
  exact isScalarArgument_toString n

theorem stores_name {name : String} {t : ValueType} {stored : StoreType}
    (plain : Text.isPlainName name = true) (known : TypeText.scalar? name = some t.normal)
    (h : (pure (.scalar name []) : Outcome StoreType) = .ok stored) :
    Stores member field stored t := by
  cases h
  exact stores_numbers [] plain known

theorem stores_decimalType {stored : StoreType} (h : d.decimalType o = .ok stored) :
    Stores member field stored .decimal := by
  have hprecision : ∀ precision scale, precisionType precision scale = .ok stored →
      Stores member field stored .decimal := by
    intro precision scale h
    unfold precisionType at h
    split at h
    · cases h
    · split at h
      · cases h
      · cases h
        exact stores_numbers [precision, scale] rfl rfl
  have hfixed : ∀ name scale maximum, Text.isPlainName name = true →
      TypeText.scalar? name = some .decimal → fixedScaleType name scale maximum = .ok stored →
      Stores member field stored .decimal := by
    intro name scale maximum plain known h
    unfold fixedScaleType at h
    split at h
    · cases h
    · cases h
      exact stores_numbers [scale] plain known
  unfold decimalType at h
  split at h
  · exact hprecision _ _ h
  · exact hprecision _ _ h
  · exact hfixed "Decimal32" _ _ rfl rfl h
  · exact hfixed "Decimal64" _ _ rfl rfl h
  · exact hfixed "Decimal128" _ _ rfl rfl h
  · exact hfixed "Decimal256" _ _ rfl rfl h

theorem stores_timeType {zone : Option String} {t : ValueType} {stored : StoreType}
    (ht : t.normal = .dateTime) (h : d.timeType o zone = .ok stored) :
    Stores member field stored t := by
  unfold timeType at h
  simp only at h
  split at h
  · cases h
  · cases h
    refine stores_scalar rfl (ht ▸ rfl) fun a ha => ?_
    rcases List.mem_cons.mp ha with rfl | ha
    · exact isScalarArgument_toString _
    · obtain ⟨name, _, rfl⟩ := Option.map_eq_some_iff.mp (Option.mem_toList.mp ha)
      exact Or.inr ⟨name, rfl⟩

theorem stores_stringType {stored : StoreType} (h : stringType o = .ok stored) :
    Stores member field stored .string := by
  unfold stringType at h
  split at h
  · exact stores_name rfl rfl h
  · cases h
  · rename_i n _ _
    cases h
    exact stores_numbers [n] rfl rfl

theorem stores_jsonType : Stores member field (jsonType o) .json := by
  refine stores_scalar rfl rfl fun a ha => ?_
  rcases List.mem_append.mp ha with ha | ha
  · obtain ⟨n, _, rfl⟩ := Option.map_eq_some_iff.mp (Option.mem_toList.mp ha)
    exact isScalarArgument_number (by decide) n
  · obtain ⟨n, _, rfl⟩ := Option.map_eq_some_iff.mp (Option.mem_toList.mp ha)
    exact isScalarArgument_number (by decide) n

theorem stores_enumType {e : Enumeration} {stored : StoreType}
    (hmember : ∀ m ∈ e.members, member m.name) (h : enumType e = .ok stored) :
    Stores member field stored (.enumeration e) := by
  unfold enumType at h
  split at h
  · cases h
  · rename_i hempty
    split at h
    · cases h
    · rename_i width hwidth
      cases h
      refine ⟨.enumeration (by simpa using hempty) hwidth hmember, ?_⟩
      rw [value, ValueType.normal, hwidth, Option.elim_some]

theorem itemTypes_eq_mapM {eight : Bool} {items : List ValueType}
    (h : ValueType.IsRow eight items) : d.itemTypes o eight items = items.mapM (d.storeType o) := by
  induction items with
  | nil => rfl
  | cons item items ih =>
    unfold itemTypes
    split
    · contradiction
    · rename_i rest heq
      obtain ⟨rfl, rfl⟩ := List.cons.inj heq
      cases eight
      · simp
      · exact absurd rfl (h rfl rest)
    · rename_i heq
      obtain ⟨rfl, rfl⟩ := List.cons.inj heq
      rw [List.mapM_cons, ih h.tail]

/-- The items of a tuple are mapped one by one, in one row. -/
theorem itemTypes_eq_mapM_flattenItems (d : TypeDefaults) (o : TypeOptions)
    (items : List ValueType) :
    d.itemTypes o (items.length == 8) items =
      (ValueType.flattenItems items).mapM (d.storeType o) := by
  fun_induction ValueType.flattenItems items with
  | case1 a b c d e f g rest ih =>
    rw [List.mapM_append, ← ih]
    simp [itemTypes]
  | case2 items hcontinued => exact itemTypes_eq_mapM (ValueType.isRow_of_not_continued hcontinued)

theorem fieldTypes_eq_mapM (d : TypeDefaults) (o : TypeOptions)
    (fields : List (String × ValueType)) :
    d.fieldTypes o fields = fields.mapM fun f => do return (f.1, ← d.storeType o f.2) := by
  induction fields with
  | nil => rfl
  | cons f fields ih =>
    rw [fieldTypes, List.mapM_cons, ih]
    cases d.storeType o f.2 <;> rfl

/-- A nullable type is mapped as the type in it, with `Nullable` around where that is allowed. -/
theorem storeType_nullable {inner : ValueType} {stored : StoreType}
    (h : d.storeType o (.nullable inner) = .ok stored) :
    inner.isNullable = false ∧ ∃ base, d.storeType o inner = .ok base ∧
      (if inner.allowsNullable then .nullable base else base) = stored := by
  rw [storeType] at h
  split at h
  · cases h
  · rename_i hinner
    exact ⟨Bool.eq_false_iff.mpr hinner, Outcome.bind_pure_eq_ok.mp h⟩

mutual

/-- The mapping of a type is well formed and holds the values of the normal form. -/
theorem stores_storeType : (t : ValueType) → (∀ n ∈ t.memberNames, member n) →
    (∀ n ∈ t.fieldNames, field n) → ∀ {stored}, d.storeType o t = .ok stored →
    Stores member field stored t
  | .bool, _, _, _, h => stores_name rfl rfl h
  | .int8, _, _, _, h => stores_name rfl rfl h
  | .int16, _, _, _, h => stores_name rfl rfl h
  | .int32, _, _, _, h => stores_name rfl rfl h
  | .int64, _, _, _, h => stores_name rfl rfl h
  | .int128, _, _, _, h => stores_name rfl rfl h
  | .uint8, _, _, _, h => stores_name rfl rfl h
  | .uint16, _, _, _, h => stores_name rfl rfl h
  | .uint32, _, _, _, h => stores_name rfl rfl h
  | .uint64, _, _, _, h => stores_name rfl rfl h
  | .uint128, _, _, _, h => stores_name rfl rfl h
  | .bigInteger, _, _, _, h => by
    rw [storeType] at h
    split at h
    · exact stores_name rfl rfl h
    · exact stores_name rfl rfl h
  | .float32, _, _, _, h => stores_name rfl rfl h
  | .float64, _, _, _, h => stores_name rfl rfl h
  | .decimal, _, _, _, h => stores_decimalType h
  | .string, _, _, _, h => stores_stringType h
  | .bytes, _, _, _, h => stores_name rfl rfl h
  | .date, _, _, _, h => stores_name rfl rfl h
  | .dateTime, _, _, _, h => stores_timeType rfl h
  | .dateTimeOffset, _, _, _, h => stores_timeType rfl h
  | .uuid, _, _, _, h => stores_name rfl rfl h
  | .ipv4, _, _, _, h => stores_name rfl rfl h
  | .ipv6, _, _, _, h => stores_name rfl rfl h
  | .json, _, _, _, h => by
    cases h
    exact stores_jsonType
  | .enumeration e, hm, _, _, h => stores_enumType (fun m hmem => hm _ (by
      rw [ValueType.memberNames]
      exact List.mem_map_of_mem hmem)) h
  | .array element, hm, hf, _, h => by
    rw [storeType] at h
    obtain ⟨s, hs, h⟩ := Outcome.bind_eq_ok.mp h
    cases h
    obtain ⟨hwell, hvalue⟩ := stores_storeType element hm hf hs
    exact ⟨.array hwell, by rw [value, ValueType.normal, hvalue]⟩
  | .map key v, hm, hf, _, h => by
    rw [ValueType.memberNames] at hm
    rw [ValueType.fieldNames] at hf
    rw [storeType] at h
    split at h
    · cases h
    · rename_i hpresent
      obtain ⟨k, hk, h⟩ := Outcome.bind_eq_ok.mp h
      obtain ⟨w, hw, h⟩ := Outcome.bind_eq_ok.mp h
      cases h
      obtain ⟨hkey, hkeyValue⟩ := stores_storeType key
        (fun n hn => hm n (List.mem_append_left _ hn))
        (fun n hn => hf n (List.mem_append_left _ hn)) hk
      obtain ⟨hv, hvValue⟩ := stores_storeType v
        (fun n hn => hm n (List.mem_append_right _ hn))
        (fun n hn => hf n (List.mem_append_right _ hn)) hw
      have hkeyPresent : k.value.isNullable = false := by
        rw [hkeyValue]
        exact ValueType.isNullable_normal (Bool.eq_false_iff.mpr hpresent)
      exact ⟨.map hkeyPresent hkey hv, by rw [value, ValueType.normal, hkeyValue, hvValue]⟩
  | .tuple items, hm, hf, _, h => by
    rw [ValueType.memberNames] at hm
    rw [ValueType.fieldNames] at hf
    rw [storeType] at h
    split at h
    · cases h
    · rename_i hempty
      obtain ⟨ss, hss, h⟩ := Outcome.bind_eq_ok.mp h
      cases h
      obtain ⟨hwell, hvalues⟩ := stores_itemTypes _ items hm hf hss
      refine ⟨.tuple ?_ hwell, by rw [value, ValueType.normal, hvalues]⟩
      rintro rfl
      have hnone := ValueType.normal_tuple items
      rw [ValueType.normal, ← hvalues, valueAll] at hnone
      have : ValueType.flattenItems items ≠ [] :=
        ValueType.flattenItems_ne_nil (by simpa using hempty)
      simp_all
  | .nested name fields, hm, hf, _, h => by
    rw [ValueType.memberNames] at hm
    rw [ValueType.fieldNames] at hf
    rw [storeType] at h
    split at h
    · cases h
    · rename_i hempty
      obtain ⟨ss, hss, h⟩ := Outcome.bind_eq_ok.mp h
      cases h
      obtain ⟨hnamed, hwell, hvalues⟩ := stores_fieldTypes fields hm hf hss
      refine ⟨.nested ?_ hnamed hwell, by rw [value, ValueType.normal, hvalues]⟩
      rintro rfl
      cases fields with
      | nil => exact hempty rfl
      | cons f fields => simp [valueFields, ValueType.normalFields] at hvalues
  | .nullable inner, hm, hf, _, h => by
    obtain ⟨hinner, s, hs, rfl⟩ := storeType_nullable h
    obtain ⟨hwell, hvalue⟩ := stores_storeType inner hm hf hs
    split
    · rename_i hallows
      refine ⟨.nullable ?_ ?_ hwell, by rw [value, ValueType.normal, if_pos hallows, hvalue]⟩
      · rw [hvalue, ValueType.isNullable_normal hinner]
      · rw [hvalue, ValueType.allowsNullable_normal hinner, hallows]
    · rename_i hallows
      exact ⟨hwell, by rw [ValueType.normal, if_neg hallows, hvalue]⟩
  | .other _, _, _, _, h => by
    cases h

theorem stores_itemTypes (eight : Bool) : (items : List ValueType) →
    (∀ n ∈ ValueType.memberNamesAll items, member n) →
    (∀ n ∈ ValueType.fieldNamesAll items, field n) → ∀ {stored},
    d.itemTypes o eight items = .ok stored →
    (∀ s ∈ stored, s.WellFormed member field) ∧
      valueAll stored = ValueType.normalItems eight items
  | [], _, _, _, h => by
    cases h
    exact ⟨by simp, rfl⟩
  | item :: items, hm, hf, _, h => by
    rw [ValueType.memberNamesAll] at hm
    rw [ValueType.fieldNamesAll] at hf
    unfold itemTypes at h
    split at h
    · contradiction
    · rename_i rest heq
      obtain ⟨rfl, rfl⟩ := List.cons.inj heq
      rw [ValueType.memberNamesAll, List.append_nil] at hm
      rw [ValueType.fieldNamesAll, List.append_nil] at hf
      rw [ValueType.normalItems]
      split at h
      · rename_i height
        rw [if_pos height]
        exact stores_itemTypes _ rest hm hf h
      · rename_i height
        rw [if_neg height]
        obtain ⟨s, hs, h⟩ := Outcome.bind_eq_ok.mp h
        cases h
        obtain ⟨hwell, hvalue⟩ := stores_storeType (.tuple rest) hm hf hs
        exact ⟨by simpa using hwell, by rw [valueAll, valueAll, hvalue, ValueType.normal]⟩
    · rename_i item' items' hlast heq
      obtain ⟨rfl, rfl⟩ := List.cons.inj heq
      obtain ⟨first, hfirst, h⟩ := Outcome.bind_eq_ok.mp h
      obtain ⟨rest, hrest, h⟩ := Outcome.bind_eq_ok.mp h
      cases h
      obtain ⟨hwell, hvalue⟩ := stores_storeType item
        (fun n hn => hm n (List.mem_append_left _ hn))
        (fun n hn => hf n (List.mem_append_left _ hn)) hfirst
      obtain ⟨hwells, hvalues⟩ := stores_itemTypes eight items
        (fun n hn => hm n (List.mem_append_right _ hn))
        (fun n hn => hf n (List.mem_append_right _ hn)) hrest
      refine ⟨by simpa [hwell] using hwells, ?_⟩
      rw [valueAll, hvalue, hvalues, ValueType.normalItems]
      exact fun t ht hnil => hlast t ht hnil

theorem stores_fieldTypes : (fields : List (String × ValueType)) →
    (∀ n ∈ ValueType.memberNamesFields fields, member n) →
    (∀ n ∈ ValueType.fieldNamesFields fields, field n) → ∀ {stored},
    d.fieldTypes o fields = .ok stored →
    (∀ f ∈ stored, field f.1) ∧ (∀ f ∈ stored, f.2.WellFormed member field) ∧
      valueFields stored = ValueType.normalFields fields
  | [], _, _, _, h => by
    cases h
    exact ⟨by simp, by simp, rfl⟩
  | (name, t) :: fields, hm, hf, _, h => by
    rw [ValueType.memberNamesFields] at hm
    rw [ValueType.fieldNamesFields] at hf
    rw [fieldTypes] at h
    obtain ⟨first, hfirst, h⟩ := Outcome.bind_eq_ok.mp h
    obtain ⟨rest, hrest, h⟩ := Outcome.bind_eq_ok.mp h
    cases h
    obtain ⟨hwell, hvalue⟩ := stores_storeType t
      (fun n hn => hm n (List.mem_append_left _ hn))
      (fun n hn => hf n (List.mem_cons_of_mem _ (List.mem_append_left _ hn))) hfirst
    obtain ⟨hnames, hwells, hvalues⟩ := stores_fieldTypes fields
      (fun n hn => hm n (List.mem_append_right _ hn))
      (fun n hn => hf n (List.mem_cons_of_mem _ (List.mem_append_right _ hn))) hrest
    refine ⟨?_, ?_, ?_⟩
    · simpa [hnames] using ⟨hf name List.mem_cons_self, fun n s => hnames (n, s)⟩
    · simpa [hwell] using hwells
    · rw [valueFields, ValueType.normalFields, hvalue, hvalues]

end

/-! ## Columns -/

/-- Whatever its names are, a mapped type is well formed and holds the values of the normal form. -/
theorem stores_of_storeType {t : ValueType} {stored : StoreType}
    (h : d.storeType o t = .ok stored) : Stores (fun _ => True) (fun _ => True) stored t :=
  stores_storeType t (fun _ _ => trivial) (fun _ _ => trivial) h

/-- Only a type that may be null is mapped to one that is. -/
theorem isNullable_of_storeType {t : ValueType} {base : StoreType}
    (h : d.storeType o t = .ok (.nullable base)) : t.isNullable = true := by
  have hvalue := (stores_of_storeType h).value_eq
  rw [value] at hvalue
  cases t
  case nullable => rfl
  all_goals cases hvalue

/-- `LowCardinality` changes how values are stored, but not which ones. -/
theorem stores_storeType_mk {base : StoreType} {nullable lowCardinality : Bool} {t : ValueType}
    (h : Stores member field (if nullable then .nullable base else base) t) :
    Stores member field (ColumnType.mk base nullable lowCardinality).storeType t := by
  cases lowCardinality
  · exact h
  · exact ⟨.lowCardinality h.wellFormed, h.value_eq⟩

/-- A column type is the mapped type. A `Nullable` around it is taken off, and is put on again only
where no default stands for nulls. -/
theorem storeType_of_columnType {t : ValueType} {c : ColumnType} (h : d.columnType o t = .ok c) :
    ∃ stored, d.storeType o t = .ok stored ∧
      (o.lowCardinality = true → t.underlying.allowsLowCardinality = true) ∧
      ((∃ base, stored = .nullable base ∧
          c = ⟨base, o.defaultForNull.isNone, o.lowCardinality⟩) ∨
        (∀ base, stored ≠ .nullable base) ∧ c = ⟨stored, false, o.lowCardinality⟩) := by
  obtain ⟨stored, hstored, h⟩ := Outcome.bind_eq_ok.mp h
  dsimp only at h
  split_ifs at h with hlow
  · cases h
  cases h
  refine ⟨stored, hstored, fun hlowCardinality => ?_, ?_⟩
  · rw [hlowCardinality, Bool.true_and, Bool.not_eq_true, Bool.not_eq_false'] at hlow
    cases t with
    | nullable inner =>
      obtain ⟨hinner, _⟩ := storeType_nullable hstored
      rwa [ValueType.underlying, ValueType.underlying_of_isNullable_eq_false hinner]
    | _ => exact hlow
  · split
    · rename_i base
      exact Or.inl ⟨base, rfl, by rw [Bool.true_and]⟩
    · rename_i hpresent
      exact Or.inr ⟨hpresent, by rw [Bool.false_and]⟩

/-- A column type is well formed and holds the values of the normal form; nulls are among them
unless a default stands for them. -/
theorem stores_columnType {t : ValueType} {c : ColumnType} (hm : ∀ n ∈ t.memberNames, member n)
    (hf : ∀ n ∈ t.fieldNames, field n) (h : d.columnType o t = .ok c) :
    Stores member field c.storeType (t.withDefault o) := by
  obtain ⟨stored, hstored, _, hc⟩ := storeType_of_columnType h
  have hall := stores_storeType t hm hf hstored
  by_cases ht : t.isNullable = true
  · obtain ⟨inner, rfl⟩ := ValueType.exists_eq_nullable ht
    obtain ⟨hinner, base, hbase, hstored⟩ := storeType_nullable hstored
    have hbaseStores := stores_storeType inner hm hf hbase
    split at hstored <;> subst hstored
    · rcases hc with ⟨_, heq, rfl⟩ | ⟨hpresent, _⟩
      · cases heq
        apply stores_storeType_mk
        cases hdefault : o.defaultForNull <;> simpa [ValueType.withDefault, hdefault]
      · exact absurd rfl (hpresent base)
    · rcases hc with ⟨_, rfl, _⟩ | ⟨_, rfl⟩
      · rw [isNullable_of_storeType hbase] at hinner
        cases hinner
      · apply stores_storeType_mk
        cases hdefault : o.defaultForNull <;> simpa [ValueType.withDefault, hdefault]
  · have hsame : t.withDefault o = t := by
      cases t <;> first | rfl | exact absurd rfl ht
    rw [hsame]
    rcases hc with ⟨base, rfl, rfl⟩ | ⟨_, rfl⟩
    · exact absurd (isNullable_of_storeType hstored) ht
    · exact stores_storeType_mk hall

end TypeDefaults

end ColumnStore
