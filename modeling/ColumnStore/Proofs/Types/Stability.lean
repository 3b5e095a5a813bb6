-- Types that were read back from a column and are mapped once more. The
-- mapping has nothing left to change in them, except where a tuple of eight
-- items ends in a tuple: it was a row of its own in the column, and is taken
-- for a longer row when it is mapped again.
import ColumnStore.Proofs.Types.RoundTrip

namespace ColumnStore

open ColumnStore.TypeText

namespace ValueType

/-! ## Long tuples -/

/-- Eight items of which the last is a tuple, as a longer row of items is written. -/
def continues : List ValueType → Bool
  | [_, _, _, _, _, _, _, tuple _] => true
  | _ => false

mutual

/-- Whether some tuple in the type has eight items and ends in a tuple. -/
def overflows : ValueType → Bool
  | array element => element.overflows
  | map key value => key.overflows || value.overflows
  | tuple items => continues items || overflowsAny items
  | nested _ fields => overflowsField fields
  | nullable inner => inner.overflows
  | _ => false

def overflowsAny : List ValueType → Bool
  | [] => false
  | t :: ts => t.overflows || overflowsAny ts

def overflowsField : List (String × ValueType) → Bool
  | [] => false
  | (_, t) :: fs => t.overflows || overflowsField fs

end

theorem overflowsAny_eq_any (items : List ValueType) : overflowsAny items = items.any overflows := by
  induction items with
  | nil => rfl
  | cons t ts ih => rw [overflowsAny, ih, List.any_cons]

theorem overflowsField_eq_any (fields : List (String × ValueType)) :
    overflowsField fields = fields.any fun f => f.2.overflows := by
  induction fields with
  | nil => rfl
  | cons f fs ih => rw [overflowsField, ih, List.any_cons]

theorem flattenItems_of_not_continues {items : List ValueType} (h : continues items = false) :
    flattenItems items = items := by
  fun_cases flattenItems items with
  | case1 => cases h
  | case2 => rfl

/-! ## Types of columns -/

/-- The type of the values in a column, where the names of enumeration members and of record
fields are as they have to be. -/
inductive Storable (member field : String → Prop) : ValueType → Prop
  | scalar {name : String} {t : ValueType} (known : scalar? name = some t) :
      Storable member field t
  | enumeration {width : EnumWidth} {members : List EnumMember} (nonempty : members ≠ [])
      (narrow : (Enumeration.mk width.typeName members).width? = some width)
      (named : ∀ m ∈ members, member m.name) :
      Storable member field (enumeration ⟨width.typeName, members⟩)
  | array {element : ValueType} (h : Storable member field element) :
      Storable member field (array element)
  | map {key value : ValueType} (present : key.isNullable = false)
      (hkey : Storable member field key) (hvalue : Storable member field value) :
      Storable member field (map key value)
  | tuple {items : List ValueType} (nonempty : items ≠ [])
      (h : ∀ t ∈ items, Storable member field t) : Storable member field (tuple items)
  | nested {fields : List (String × ValueType)} (nonempty : fields ≠ [])
      (named : ∀ f ∈ fields, field f.1) (h : ∀ f ∈ fields, Storable member field f.2) :
      Storable member field (nested "Nested" fields)
  | nullable {inner : ValueType} (present : inner.isNullable = false)
      (allowed : inner.allowsNullable = true) (h : Storable member field inner) :
      Storable member field (nullable inner)

end ValueType

open ValueType

variable {member field : String → Prop}

theorem StoreType.WellFormed.storable_value {c : StoreType} (h : c.WellFormed member field) :
    c.value.Storable member field := by
  induction h with
  | scalar _ known _ =>
    rw [value, known]
    exact .scalar known
  | enumeration nonempty narrow named => exact .enumeration nonempty narrow named
  | array _ ih => exact .array ih
  | map present _ _ ihkey ihvalue => exact .map present ihkey ihvalue
  | tuple nonempty _ ih =>
    rw [value, valueAll_eq_map]
    refine .tuple (by simpa using nonempty) fun t ht => ?_
    obtain ⟨item, hitem, rfl⟩ := List.mem_map.mp ht
    exact ih item hitem
  | nested nonempty named _ ih =>
    rw [value, valueFields_eq_map]
    refine .nested (by simpa using nonempty) (fun f hf => ?_) fun f hf => ?_
    · obtain ⟨f', hf', rfl⟩ := List.mem_map.mp hf
      exact named f' hf'
    · obtain ⟨f', hf', rfl⟩ := List.mem_map.mp hf
      exact ih f' hf'
  | nullable present allowed _ ih => exact .nullable present allowed ih
  | lowCardinality _ ih => exact ih

namespace ValueType

theorem Storable.rename {member' field' : String → Prop} {f g : String → String} {t : ValueType}
    (h : t.Storable member field) (hf : ∀ n, member n → member' (f n))
    (hg : ∀ n, field n → field' (g n)) : (t.rename f g).Storable member' field' := by
  induction h with
  | scalar known =>
    rw [StoreType.rename_of_scalar? known]
    exact .scalar known
  | @enumeration width members nonempty narrow named =>
    refine .enumeration (by simpa using nonempty) ?_ fun m hm => ?_
    · exact (width?_rename ⟨width.typeName, members⟩ f).trans narrow
    · obtain ⟨m', hm', rfl⟩ := List.mem_map.mp hm
      exact hf _ (named m' hm')
  | array _ ih => exact .array ih
  | map present _ _ ihkey ihvalue =>
    exact .map (by rw [isNullable_rename, present]) ihkey ihvalue
  | tuple nonempty _ ih =>
    rw [ValueType.rename, renameAll_eq_map]
    refine .tuple (by simpa using nonempty) fun t ht => ?_
    obtain ⟨item, hitem, rfl⟩ := List.mem_map.mp ht
    exact ih item hitem
  | nested nonempty named _ ih =>
    rw [ValueType.rename, renameFields_eq_map]
    refine .nested (by simpa using nonempty) (fun f hf => ?_) fun f hf => ?_
    · obtain ⟨f', hf', rfl⟩ := List.mem_map.mp hf
      exact hg _ (named f' hf')
    · obtain ⟨f', hf', rfl⟩ := List.mem_map.mp hf
      exact ih f' hf'
  | nullable present allowed _ ih =>
    exact .nullable (by rw [isNullable_rename, present]) (by rw [allowsNullable_rename, allowed]) ih

theorem Storable.of_mem_fieldNames {t : ValueType} (h : t.Storable member field) :
    ∀ n ∈ t.fieldNames, field n := by
  induction h with
  | scalar known =>
    unfold scalar? at known
    split at known <;> cases known <;> nofun
  | enumeration => nofun
  | array _ ih => exact ih
  | map _ _ _ ihkey ihvalue =>
    rw [fieldNames, List.forall_mem_append]
    exact ⟨ihkey, ihvalue⟩
  | tuple _ _ ih =>
    rw [fieldNames, fieldNamesAll_eq_flatMap]
    intro n hn
    obtain ⟨t, ht, hn⟩ := List.mem_flatMap.mp hn
    exact ih t ht n hn
  | nested _ named _ ih =>
    rw [fieldNames, fieldNamesFields_eq_flatMap]
    intro n hn
    obtain ⟨f, hf, hn⟩ := List.mem_flatMap.mp hn
    rcases List.mem_cons.mp hn with rfl | hn
    · exact named f hf
    · exact ih f hf n hn
  | nullable _ _ _ ih => exact ih

end ValueType

/-! ## Mapping once more -/

namespace TypeDefaults

variable {d : TypeDefaults}

/-- Items are mapped where each of them is, also where the last one continues them. -/
theorem exists_itemTypes {o : TypeOptions} {items : List ValueType} (eight : Bool)
    (h : ∀ t ∈ items, ∃ c, d.storeType o t = .ok c) : ∃ cs, d.itemTypes o eight items = .ok cs := by
  induction items with
  | nil => exact ⟨[], rfl⟩
  | cons item items ih =>
    obtain ⟨c, hc⟩ := h item List.mem_cons_self
    obtain ⟨cs, hcs⟩ := ih fun t ht => h t (List.mem_cons_of_mem _ ht)
    unfold itemTypes
    split
    · contradiction
    · rename_i rest heq
      obtain ⟨rfl, rfl⟩ := List.cons.inj heq
      split
      · rw [storeType] at hc
        split at hc
        · cases hc
        · obtain ⟨rs, hrs, _⟩ := Outcome.bind_eq_ok.mp hc
          exact ⟨rs, hrs⟩
      · exact ⟨[c], by rw [hc]; rfl⟩
    · rename_i heq
      obtain ⟨rfl, rfl⟩ := List.cons.inj heq
      exact ⟨c :: cs, by rw [hc, hcs]; rfl⟩

theorem exists_fieldTypes {o : TypeOptions} {fields : List (String × ValueType)}
    (h : ∀ f ∈ fields, ∃ c, d.storeType o f.2 = .ok c) : ∃ cs, d.fieldTypes o fields = .ok cs := by
  induction fields with
  | nil => exact ⟨[], rfl⟩
  | cons f fields ih =>
    obtain ⟨c, hc⟩ := h f List.mem_cons_self
    obtain ⟨cs, hcs⟩ := ih fun f' hf => h f' (List.mem_cons_of_mem _ hf)
    exact ⟨(f.1, c) :: cs, by rw [fieldTypes, hc, hcs]; rfl⟩

/-- The type of the values in a column is mapped without any options. -/
theorem exists_storeType {t : ValueType} (h : t.Storable member field) :
    ∃ c, ({} : TypeDefaults).storeType {} t = .ok c := by
  induction h with
  | scalar known =>
    unfold scalar? at known
    split at known <;> cases known <;> exact ⟨_, rfl⟩
  | enumeration nonempty narrow _ =>
    rw [storeType, enumType, if_neg (by simpa using nonempty), narrow]
    exact ⟨_, rfl⟩
  | array _ ih =>
    obtain ⟨c, hc⟩ := ih
    exact ⟨.array c, by rw [storeType, hc]; rfl⟩
  | map present _ _ ihkey ihvalue =>
    obtain ⟨key, hkey⟩ := ihkey
    obtain ⟨value, hvalue⟩ := ihvalue
    exact ⟨.map key value, by rw [storeType, if_neg (by simp [present]), hkey, hvalue]; rfl⟩
  | @tuple items nonempty _ ih =>
    obtain ⟨cs, hcs⟩ := exists_itemTypes (items.length == 8) ih
    exact ⟨.tuple cs, by rw [storeType, if_neg (by simpa using nonempty), hcs]; rfl⟩
  | nested nonempty _ _ ih =>
    obtain ⟨cs, hcs⟩ := exists_fieldTypes ih
    exact ⟨.nested cs, by rw [storeType, if_neg (by simpa using nonempty), hcs]; rfl⟩
  | @nullable inner present allowed _ ih =>
    obtain ⟨c, hc⟩ := ih
    have hkept : (if inner.allowsNullable then StoreType.nullable c else c) = .nullable c :=
      if_pos allowed
    exact ⟨.nullable c, by
      rw [storeType, if_neg (by simp [present]), hc, ← hkept]; rfl⟩

end TypeDefaults

/-! ## Reading once more -/

namespace ValueType

/-- The type as it is read back from its column. -/
def reread (t : ValueType) : ValueType := t.normal.rename respelled bare

theorem reread_array (element : ValueType) : (array element).reread = array element.reread := rfl

theorem reread_map (key value : ValueType) :
    (map key value).reread = map key.reread value.reread := rfl

theorem reread_tuple (items : List ValueType) :
    (tuple items).reread = tuple ((flattenItems items).map reread) := by
  rw [reread, normal_tuple, rename, renameAll_eq_map, List.map_map]
  rfl

theorem reread_nested (name : String) (fields : List (String × ValueType)) :
    (nested name fields).reread = nested "Nested" (fields.map fun f => (bare f.1, f.2.reread)) := by
  rw [reread, normal, normalFields_eq_map, rename, renameFields_eq_map, List.map_map]
  rfl

theorem reread_nullable {inner : ValueType} (h : inner.allowsNullable = true) :
    (nullable inner).reread = nullable inner.reread := by
  rw [reread, normal, if_pos h]
  rfl

theorem reread_of_scalar? {name : String} {t : ValueType} (h : scalar? name = some t) :
    t.reread = t := by
  unfold scalar? at h
  split at h <;> cases h <;> rfl

theorem reread_enumeration {width : EnumWidth} {members : List EnumMember}
    (narrow : (Enumeration.mk width.typeName members).width? = some width)
    (readable : ∀ m ∈ members, IsReadable m.name) :
    (enumeration ⟨width.typeName, members⟩).reread = enumeration ⟨width.typeName, members⟩ := by
  rw [reread, normal, narrow, Option.elim_some, rename,
    map_members_eq_self fun m hm => respelled_eq_self (readable m hm)]

theorem scalar?_ne_tuple {name : String} (items : List ValueType) :
    scalar? name ≠ some (tuple items) := by
  unfold scalar?
  split <;> nofun

/-- No type is read back as the tuple of it alone. -/
theorem Storable.reread_ne_tuple {t : ValueType} (h : t.Storable member field) :
    t.reread ≠ ValueType.tuple [t] := by
  induction h with
  | scalar known =>
    rw [reread_of_scalar? known]
    unfold scalar? at known
    split at known <;> cases known <;> nofun
  | enumeration _ narrow _ =>
    rw [reread, normal, narrow]
    nofun
  | array => nofun
  | map => nofun
  | @tuple items _ _ ih =>
    intro heq
    rw [reread_tuple] at heq
    obtain ⟨t, ht, htuple⟩ := List.map_eq_singleton_iff.mp (ValueType.tuple.inj heq)
    obtain rfl := eq_singleton_of_flattenItems ht
    exact ih t List.mem_cons_self htuple
  | nested =>
    rw [reread_nested]
    nofun
  | nullable _ allowed _ _ =>
    rw [reread_nullable allowed]
    nofun

/-- Eight items that a tuple ends are not read back as they are. -/
theorem reread_items_ne_self {items : List ValueType} (hcontinues : continues items = true)
    (h : ∀ t ∈ items, t.Storable member field) : (flattenItems items).map reread ≠ items := by
  unfold continues at hcontinues
  split at hcontinues
  · rename_i a b c d e f g rest
    intro heq
    have hsplit : [a, b, c, d, e, f, g].map reread ++ (flattenItems rest).map reread =
        [a, b, c, d, e, f, g] ++ [ValueType.tuple rest] := by
      rw [flattenItems, List.map_append] at heq
      exact heq
    -- The row has eight items again only where it goes on with a single item, which would have
    -- to be read back as the tuple of it.
    obtain ⟨x, hx, hread⟩ := List.map_eq_singleton_iff.mp (List.append_inj hsplit rfl).2
    obtain rfl := eq_singleton_of_flattenItems hx
    have hstored : x.Storable member field := by
      have hlast := h (ValueType.tuple [x]) (by simp)
      cases hlast with
      | scalar known => exact absurd known (scalar?_ne_tuple [x])
      | tuple _ hitems => exact hitems x List.mem_cons_self
    exact hstored.reread_ne_tuple hread
  · cases hcontinues

/-- What was read back is read back once more as it is where no tuple looks like a longer row and
no name of a field has quotes around it. -/
theorem Storable.reread_eq_self_iff {t : ValueType} (h : t.Storable IsReadable field) :
    t.reread = t ↔ t.overflows = false ∧ ∀ n ∈ t.fieldNames, bare n = n := by
  induction h with
  | @scalar name t known =>
    have hplain : t.overflows = false ∧ t.fieldNames = [] := by
      unfold scalar? at known
      split at known <;> cases known <;> exact ⟨rfl, rfl⟩
    simp [reread_of_scalar? known, hplain]
  | enumeration _ narrow named =>
    simp [reread_enumeration narrow named, overflows, fieldNames]
  | array _ ih => rw [reread_array, array.injEq, ih, overflows, fieldNames]
  | map _ _ _ ihkey ihvalue =>
    rw [reread_map, map.injEq, ihkey, ihvalue, overflows, fieldNames, Bool.or_eq_false_iff,
      List.forall_mem_append, and_and_and_comm]
  | @tuple items _ hitems ih =>
    rw [reread_tuple, tuple.injEq, overflows, fieldNames, overflowsAny_eq_any,
      fieldNamesAll_eq_flatMap, Bool.or_eq_false_iff]
    by_cases hcontinues : continues items = true
    · simp [hcontinues, reread_items_ne_self hcontinues hitems]
    · rw [Bool.not_eq_true] at hcontinues
      rw [flattenItems_of_not_continues hcontinues, map_eq_self_iff]
      simp only [hcontinues, true_and, List.any_eq_false, List.mem_flatMap]
      grind
  | @nested fields _ _ _ ih =>
    rw [reread_nested, overflows, fieldNames, overflowsField_eq_any, fieldNamesFields_eq_flatMap]
    simp only [nested.injEq, true_and, map_eq_self_iff, Prod.ext_iff, List.any_eq_false,
      List.mem_flatMap, List.mem_cons]
    grind
  | nullable _ allowed _ ih =>
    rw [reread_nullable allowed, nullable.injEq, ih, overflows, fieldNames]

end ValueType

/-! ## Mapping and reading once more -/

namespace TypeDefaults

variable {d : TypeDefaults} {o : TypeOptions} {t : ValueType} {text : String}

/-- The text of a column type is read as the type of its values, whatever the members of its
enumerations are called. -/
theorem ofStoreText_of_resolve (hfields : ∀ n ∈ t.fieldNames, IsWord n)
    (h : d.resolve o t = .ok text) :
    ValueType.ofStoreText text = .ok (t.withDefault o).reread := by
  obtain ⟨c, hc, htext⟩ := Outcome.bind_eq_ok.mp h
  cases htext
  have hstores := stores_columnType (fun _ _ => trivial) hfields hc
  rw [reread, ← hstores.value_eq]
  exact read_render_renamed hstores.wellFormed

theorem storable_reread {field : String → Prop} (hfields : ∀ n ∈ t.fieldNames, field n)
    (hbare : ∀ n, field n → IsWord (bare n)) (h : d.resolve o t = .ok text) :
    (t.withDefault o).reread.Storable IsReadable IsWord := by
  obtain ⟨c, hc, _⟩ := Outcome.bind_eq_ok.mp h
  have hstores := stores_columnType (fun _ _ => trivial) hfields hc
  have hstorable := hstores.wellFormed.storable_value
  rw [hstores.value_eq] at hstorable
  exact hstorable.rename (fun _ _ _ => not_isLettered_of_mem_respelled) hbare

/-- The type of the values in a column has a column type without any options. -/
theorem exists_resolve (h : t.Storable member field) :
    ∃ text, ({} : TypeDefaults).resolve {} t = .ok text := by
  obtain ⟨c, hc⟩ := exists_storeType h
  unfold resolve columnType
  rw [hc]
  exact ⟨_, rfl⟩

theorem withDefault_none : t.withDefault {} = t := by
  cases t <;> rfl

/-- The type that a column is read back as has a column type once more, and this one is read back
as the same type exactly where no tuple in it looks like a longer row and no name of a field has
quotes around it. -/
theorem column_type_reads_back_stably_iff
    (hfields : ∀ n ∈ t.fieldNames, IsWord n ∧ bare n ≠ "") (h : d.resolve o t = .ok text) :
    ∃ a again, ValueType.ofStoreText text = .ok a ∧
      ({} : TypeDefaults).resolve {} a = .ok again ∧
      (ValueType.ofStoreText again = .ok a ↔
        a.overflows = false ∧ ∀ n ∈ a.fieldNames, bare n = n) := by
  have hread := ofStoreText_of_resolve (fun n hn => (hfields n hn).1) h
  have hstorable := storable_reread hfields (fun _ hn => hn.1.bare hn.2) h
  obtain ⟨again, hagain⟩ := exists_resolve hstorable
  refine ⟨_, again, hread, hagain, ?_⟩
  rw [ofStoreText_of_resolve hstorable.of_mem_fieldNames hagain, withDefault_none, Except.ok.injEq]
  exact hstorable.reread_eq_self_iff

/-- The quotes around a name are gone after the first reading, and so are the nulls around a
tuple, which is one row of nine; nothing is left for a second one. -/
theorem quoted_record_reads_back_stably :
    let long := ValueType.tuple
      [.int8, .int8, .int8, .int8, .int8, .int8, .bool, .tuple [.tuple [.bytes], .bytes]]
    let kind := ValueType.enumeration ⟨"Kind", [⟨"a\tb", 1⟩]⟩
    let event := ValueType.nested "Event" [("\x60long\x60", .nullable long), ("\"kind\"", kind)]
    let text := "Nested(\x60long\x60 Tuple(Int8, Int8, Int8, Int8, Int8, Int8, Bool, " ++
      "Tuple(String), String), \"kind\" Enum8('a\\tb' = 1))"
    let a := ValueType.nested "Nested"
      [("long", .tuple [.int8, .int8, .int8, .int8, .int8, .int8, .bool, .tuple [.string],
        .string]),
      ("kind", .enumeration ⟨"Enum8", [⟨"a\\tb", 1⟩]⟩)]
    (∀ n ∈ event.fieldNames, IsWord n ∧ bare n ≠ "") ∧
      ({} : TypeDefaults).resolve {} event = .ok text ∧
      ValueType.ofStoreText text = .ok a ∧
      ∃ again, ({} : TypeDefaults).resolve {} a = .ok again ∧
        ValueType.ofStoreText again = .ok a := by
  intro long kind event text a
  have hnames : ∀ n ∈ event.fieldNames, IsWord n ∧ bare n ≠ "" := by
    have hquiet : (event.fieldNames.all fun n => (n.toList.all fun c =>
        isOrdinary c && !Text.isBlank c && c != ',') && n != "" && bare n != "") = true := by decide
    intro n hn
    have hname := List.all_eq_true.mp hquiet n hn
    simp only [Bool.and_eq_true, List.all_eq_true, Bool.not_eq_true', bne_iff_ne] at hname
    obtain ⟨⟨hchars, hnonempty⟩, hbare⟩ := hname
    have hword := isWord_of_quiet (fun c hc => and_assoc.mp (hchars c hc)) hnonempty
    exact ⟨hword, hbare⟩
  have hresolve : ({} : TypeDefaults).resolve {} event = .ok text := by rfl
  obtain ⟨a', again, hread, hagain, hiff⟩ := column_type_reads_back_stably_iff hnames hresolve
  obtain rfl : a' = a := by
    rw [ofStoreText_of_resolve (fun n hn => (hnames n hn).1) hresolve] at hread
    cases hread
    rfl
  exact ⟨hnames, hresolve, hread, again, hagain, hiff.mpr ⟨by rfl, by decide⟩⟩

/-- Seven numbers and a pair are read as eight items, which are then taken for nine. -/
theorem row_of_eight_reads_back_as_nine :
    let number := ValueType.int8
    let pair := ValueType.tuple [.int8, .string]
    let t := ValueType.tuple
      [number, number, number, number, number, number, number, .tuple [pair]]
    ∃ text a again, ({} : TypeDefaults).resolve {} t = .ok text ∧
      ValueType.ofStoreText text = .ok a ∧
      ({} : TypeDefaults).resolve {} a = .ok again ∧ ValueType.ofStoreText again ≠ .ok a := by
  intro number pair t
  have hresolve : ({} : TypeDefaults).resolve {} t =
      .ok "Tuple(Int8, Int8, Int8, Int8, Int8, Int8, Int8, Tuple(Int8, String))" := by rfl
  let a := ValueType.tuple [number, number, number, number, number, number, number, pair]
  have hagain : ({} : TypeDefaults).resolve {} a =
      .ok "Tuple(Int8, Int8, Int8, Int8, Int8, Int8, Int8, Int8, String)" := by rfl
  refine ⟨_, a, _, hresolve, ofStoreText_of_resolve (List.forall_mem_nil _) hresolve, hagain, ?_⟩
  rw [ofStoreText_of_resolve (List.forall_mem_nil _) hagain]
  simp [a, reread_tuple, withDefault, flattenItems, pair]

end TypeDefaults

end ColumnStore
