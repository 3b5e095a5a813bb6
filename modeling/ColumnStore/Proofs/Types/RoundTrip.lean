-- Column types and their texts. The text of a well-formed column type is read
-- back as the type of the values in it, so a value type that is mapped and
-- read back comes out in its normal form.
import ColumnStore.Proofs.Types.FieldNames
import ColumnStore.Proofs.Types.Mapping
import ColumnStore.Proofs.Types.Members

namespace ColumnStore

theorem StoreType.renderAll_eq_map (items : List StoreType) :
    renderAll items = items.map render := by
  induction items with
  | nil => rfl
  | cons t ts ih => rw [renderAll, ih, List.map_cons]

theorem StoreType.renderFields_eq_map (fields : List (String × StoreType)) :
    renderFields fields = fields.map fun f => f.1 ++ " " ++ f.2.render := by
  induction fields with
  | nil => rfl
  | cons f fs ih => rw [renderFields, ih, List.map_cons]

namespace TypeText

open ColumnStore.Text

/-! ## Texts of column types are arguments -/

theorem isArgument_plainName {name : String} (h : isPlainName name = true) :
    IsArgument name.toList := by
  have hchars := isNameChar_of_isPlainName h
  exact ⟨sealed_ordinary fun c hc => isOrdinary_of_isNameChar (hchars c hc),
    trim_eq_self_of_unbroken fun c hc => isBlank_of_isNameChar (hchars c hc),
    toList_ne_nil_of_isPlainName h⟩

theorem toList_applied {name : String} {args : List String} (h : args ≠ []) :
    (StoreType.applied name args).toList =
      name.toList ++ '(' :: (joined (args.map String.toList) ++ [')']) := by
  rw [StoreType.applied, if_neg (by simpa using h), String.toList_append, String.toList_append,
    String.toList_append, toList_intercalate_comma, List.append_assoc, List.append_assoc]
  rfl

theorem isArgument_applied {name : String} {args : List String} (hname : isPlainName name = true)
    (hargs : ∀ a ∈ args, Balanced a.toList) : IsArgument (StoreType.applied name args).toList := by
  by_cases hempty : args = []
  · subst hempty
    exact isArgument_plainName hname
  · have hword := isArgument_plainName hname
    have hjoined : Balanced (joined (args.map String.toList)) := by
      apply balanced_joined
      intro x hx
      obtain ⟨a, ha, rfl⟩ := List.mem_map.mp hx
      exact hargs a ha
    rw [toList_applied hempty]
    refine ⟨hword.closed.append (sealed_parenthesised hjoined), ?_, by simp⟩
    exact trim_between hword.trimmed (by decide) hword.nonempty (by simp) ('(' :: joined _)

theorem balanced_of_isScalarArgument {a : String} (h : StoreType.IsScalarArgument a) :
    Balanced a.toList := by
  apply Sealed.balanced
  rcases h with h | ⟨s, rfl⟩
  · apply sealed_ordinary
    intro c hc
    rcases h c hc with hname | rfl
    · exact isOrdinary_of_isNameChar hname
    · decide
  · exact sealed_literal s

theorem isArgument_memberText (m : EnumMember) : IsArgument (StoreType.memberText m).toList := by
  have hcode : Sealed (toString m.code.toInt).toList := by
    apply sealed_ordinary
    intro c hc
    rcases mem_toString_int hc with rfl | hdigit
    · decide
    · exact isOrdinary_of_isNameChar (by simp [isNameChar, Char.isAlphanum, hdigit])
  have hequals : Sealed [' ', '=', ' '] := sealed_ordinary (by simp [isOrdinary])
  have htext : (StoreType.memberText m).toList =
      (literal m.name).toList ++ ([' ', '=', ' '] ++ (toString m.code.toInt).toList) := by
    simp [StoreType.memberText]
  rw [htext]
  refine ⟨(sealed_literal _).append (hequals.append hcode), ?_, by simp [toList_literal]⟩
  exact trim_between (trim_literal _) (trim_toString_int _) (by simp [toList_literal])
    (toList_toString_int_ne_nil _) _

theorem toList_fieldText (name : String) (type : String) :
    (name ++ " " ++ type).toList = name.toList ++ ([' '] ++ type.toList) := by
  simp

/-- A field's name stands before its type with a blank between them. -/
theorem isPiece_field {name : String} {type : List Char} (hname : IsLabel name)
    (h : IsPiece type) : IsPiece (name.toList ++ ([' '] ++ type)) := by
  have hblank : Closes [','] .plain 0 [' '] := by decide
  have hlabel := hname.isPiece
  exact ⟨hname.closes.append (hblank.append h.closes),
    trim_between hlabel.trimmed h.trimmed hlabel.nonempty h.nonempty _, by simp⟩

theorem isArgument_field {name : String} {type : List Char} (hname : IsWord name)
    (h : IsArgument type) : IsArgument (name.toList ++ ([' '] ++ type)) := by
  have hblank : Sealed [' '] := sealed_ordinary (by simp [isOrdinary])
  have hpiece := isPiece_field hname.isLabel h.isPiece
  exact ⟨hname.closed.append (hblank.append h.closed), hpiece.trimmed, hpiece.nonempty⟩

theorem isArgument_types {name : String} (hname : isPlainName name = true)
    (items : List StoreType) (h : ∀ t ∈ items, IsArgument t.render.toList) :
    IsArgument (StoreType.applied name (items.map StoreType.render)).toList := by
  apply isArgument_applied hname
  intro a ha
  obtain ⟨t, ht, rfl⟩ := List.mem_map.mp ha
  exact (h t ht).closed.balanced

/-- The text of a well-formed column type is one argument. -/
theorem isArgument_render {member : String → Prop} {t : StoreType}
    (h : t.WellFormed member IsWord) : IsArgument t.render.toList := by
  induction h with
  | scalar plain _ written =>
    exact isArgument_applied plain fun a ha => balanced_of_isScalarArgument (written a ha)
  | @enumeration width members _ _ _ =>
    rw [StoreType.render]
    refine isArgument_applied (by cases width <;> decide) fun a ha => ?_
    obtain ⟨m, _, rfl⟩ := List.mem_map.mp ha
    exact (isArgument_memberText m).closed.balanced
  | @array element _ ih => exact isArgument_types (by decide) [element] (by simpa using ih)
  | @map key value _ _ _ ihkey ihvalue =>
    exact isArgument_types (by decide) [key, value] (by simpa using ⟨ihkey, ihvalue⟩)
  | @tuple items _ _ ih =>
    rw [StoreType.render, StoreType.renderAll_eq_map]
    exact isArgument_types (by decide) items ih
  | @nested fields _ named _ ih =>
    rw [StoreType.render, StoreType.renderFields_eq_map]
    refine isArgument_applied (by decide) fun a ha => ?_
    obtain ⟨f, hf, rfl⟩ := List.mem_map.mp ha
    rw [toList_fieldText]
    exact (isArgument_field (named f hf) (ih f hf)).closed.balanced
  | @nullable inner _ _ _ ih => exact isArgument_types (by decide) [inner] (by simpa using ih)
  | @lowCardinality inner _ ih => exact isArgument_types (by decide) [inner] (by simpa using ih)

/-! ## Reading one type -/

theorem ne_parenthesis_of_mem {name : String} (h : isPlainName name = true) :
    ∀ c ∈ name.toList, decide (c ≠ '(') = true := by
  intro c hc
  have hordinary := (isOrdinary_of_isNameChar (isNameChar_of_isPlainName h c hc)).1
  simp_all [isOrdinary]

theorem not_isBlank_of_mem {name : String} (h : isPlainName name = true) :
    ∀ c ∈ name.toList, (!isBlank c) = true := by
  intro c hc
  rw [isBlank_of_isNameChar (isNameChar_of_isPlainName h c hc)]
  rfl

theorem takeWhile_plainName {name : String} (h : isPlainName name = true) (cs : List Char) :
    (name.toList ++ '(' :: cs).takeWhile (· ≠ '(') = name.toList ∧
      (name.toList ++ '(' :: cs).dropWhile (· ≠ '(') = '(' :: cs :=
  span_append (ne_parenthesis_of_mem h) (by simp)

theorem shape_applied {name : String} (h : isPlainName name = true) (args : List Char) :
    ∃ shorter, shape (name.toList ++ '(' :: (args ++ [')'])) = .applied name args shorter := by
  obtain ⟨hname, hargs⟩ := takeWhile_plainName h (args ++ [')'])
  have hshorter : args.length < (name.toList ++ '(' :: (args ++ [')'])).length := by
    simp
    omega
  refine ⟨hshorter, ?_⟩
  unfold shape
  split
  · rename_i heq
    rw [hargs] at heq
    cases heq
  · rename_i c rest heq
    have hrest : rest = args ++ [')'] := by
      rw [hargs] at heq
      exact (List.cons.inj heq).2.symm
    subst hrest
    rw [if_pos List.getLast?_concat]
    simp only [hname, (isArgument_plainName h).trimmed, String.ofList_toList,
      List.dropLast_concat]

section applied

variable {text args : List Char} {name : String}

theorem shape_trim (hname : isPlainName name = true)
    (htext : text = name.toList ++ '(' :: (args ++ [')'])) :
    ∃ shorter, shape (trim text) = .applied name args shorter := by
  have hword := isArgument_plainName hname
  have htrim : trim text = text := by
    rw [htext]
    exact trim_between hword.trimmed (by decide) hword.nonempty (by simp) ('(' :: args)
  rw [htrim, htext]
  exact shape_applied hname args

theorem mapM_eq_mapM_attach {α β : Type} (f : α → Outcome β) (l : List α) :
    l.mapM f = l.attach.mapM fun x => f x.val := by
  have hmap := List.mapM_map (m := Outcome) (f := Subtype.val) (g := f) (l := l.attach)
  rwa [List.attach_map_subtype_val] at hmap

theorem read_scalar {arguments : List String} {t : ValueType} (hname : isPlainName name = true)
    (known : scalar? name = some t) :
    ValueType.read (StoreType.applied name arguments).toList = .ok t := by
  by_cases hempty : arguments = []
  · subst hempty
    have hplain : ∀ s, s = name.toList → shape s = .plain := by
      rintro s rfl
      have hdrop : name.toList.dropWhile (· ≠ '(') = [] := by
        rw [← List.append_nil name.toList,
          List.dropWhile_append_of_pos (ne_parenthesis_of_mem hname), List.dropWhile_nil]
      unfold shape
      split
      · rfl
      · rename_i heq
        rw [hdrop] at heq
        cases heq
    have htrim : trim (StoreType.applied name []).toList = name.toList :=
      (isArgument_plainName hname).trimmed
    rw [ValueType.read]
    simp only [hplain _ htrim]
    rw [htrim, String.ofList_toList, known]
  · obtain ⟨_, hshape⟩ := shape_trim hname (toList_applied hempty)
    rw [ValueType.read]
    simp only [hshape, known]

theorem read_nullable (htext : text = "Nullable".toList ++ '(' :: (args ++ [')'])) :
    ValueType.read text = ValueType.nullable <$> ValueType.read args := by
  obtain ⟨_, hshape⟩ := shape_trim (by decide) htext
  have hscalar : scalar? "Nullable" = none := rfl
  rw [ValueType.read]
  simp only [hshape, hscalar]

theorem read_lowCardinality (htext : text = "LowCardinality".toList ++ '(' :: (args ++ [')'])) :
    ValueType.read text = ValueType.read args := by
  obtain ⟨_, hshape⟩ := shape_trim (by decide) htext
  have hscalar : scalar? "LowCardinality" = none := rfl
  rw [ValueType.read]
  simp only [hshape, hscalar]

theorem read_array (htext : text = "Array".toList ++ '(' :: (args ++ [')'])) :
    ValueType.read text = ValueType.array <$> ValueType.read args := by
  obtain ⟨_, hshape⟩ := shape_trim (by decide) htext
  have hscalar : scalar? "Array" = none := rfl
  rw [ValueType.read]
  simp only [hshape, hscalar]

theorem read_map {key value : List Char} (htext : text = "Map".toList ++ '(' :: (args ++ [')']))
    (hargs : splitArguments args = [key, value]) :
    ValueType.read text = (do return .map (← ValueType.read key) (← ValueType.read value)) := by
  obtain ⟨_, hshape⟩ := shape_trim (by decide) htext
  have hscalar : scalar? "Map" = none := rfl
  rw [ValueType.read]
  simp only [hshape, hscalar]
  split
  · rename_i heq
    rw [hargs] at heq
    cases heq
    rfl
  · rename_i hother
    exact absurd hargs (hother key value)

theorem read_tuple (htext : text = "Tuple".toList ++ '(' :: (args ++ [')'])) :
    ValueType.read text = (do
      return .tuple (← (splitArguments args).mapM fun item =>
        ValueType.read (splitName item).2)) := by
  obtain ⟨_, hshape⟩ := shape_trim (by decide) htext
  have hscalar : scalar? "Tuple" = none := rfl
  rw [ValueType.read]
  simp only [hshape, hscalar]
  symm
  exact congrArg (· >>= fun items => pure (ValueType.tuple items)) (mapM_eq_mapM_attach _ _)

/-- A field of the record `type`: a name and the type behind it. -/
def readField (type : String) (field : List Char) : Outcome (String × ValueType) :=
  match (splitName field).1 with
  | none => .error (.mapping type .unnamedField)
  | some name => do return (String.ofList name, ← ValueType.read (splitName field).2)

theorem read_nested (htext : text = "Nested".toList ++ '(' :: (args ++ [')'])) :
    ValueType.read text = (do
      return .nested "Nested"
        (← (splitArguments args).mapM (readField (String.ofList (trim text))))) := by
  obtain ⟨_, hshape⟩ := shape_trim (by decide) htext
  have hscalar : scalar? "Nested" = none := rfl
  rw [ValueType.read]
  simp only [hshape, hscalar]
  symm
  exact congrArg (· >>= fun fields => pure (ValueType.nested "Nested" fields))
    (mapM_eq_mapM_attach _ _)

theorem read_enumeration {width : EnumWidth}
    (htext : text = width.typeName.toList ++ '(' :: (args ++ [')'])) :
    ValueType.read text = (do
      return .enumeration ⟨width.typeName,
        ← (splitArguments args).mapM (readMember (String.ofList (trim text)))⟩) := by
  obtain ⟨_, hshape⟩ := shape_trim (by cases width <;> decide) htext
  have hscalar : scalar? width.typeName = none := by cases width <;> rfl
  rw [ValueType.read]
  simp only [hshape, hscalar]
  cases width <;> rfl

end applied

/-! ## Names of arguments -/

/-- A field as it is written is read as its name and its type. -/
theorem readField_field {name : String} (hname : IsLabel name) {cs : List Char}
    (hcs : trim cs = cs) (hne : cs ≠ []) (type : String) :
    readField type (name.toList ++ ([' '] ++ cs)) =
      (do return (bare name, ← ValueType.read cs)) := by
  rw [readField, splitName_field hname hcs hne]
  dsimp only
  rw [String.ofList_toList]

/-- A type with blanks in its arguments is not taken for a name and a type. -/
theorem splitName_applied {name : String} {arguments : List String}
    (hname : isPlainName name = true) :
    splitName (StoreType.applied name arguments).toList =
      (none, (StoreType.applied name arguments).toList) := by
  have hword := not_isBlank_of_mem hname
  unfold splitName
  by_cases hempty : arguments = []
  · subst hempty
    have hdrop : (StoreType.applied name []).toList.dropWhile (fun c => !isBlank c) = [] := by
      show name.toList.dropWhile _ = []
      rw [← List.append_nil name.toList, List.dropWhile_append_of_pos hword, List.dropWhile_nil]
    simp [hdrop, trim, trimEnd]
  · rw [toList_applied hempty, List.takeWhile_append_of_pos hword,
      List.takeWhile_cons_of_pos (by decide)]
    simp

/-! ## Reading what was written -/

/-- The names that a member can have: those that are read back as they were written. -/
def IsReadable (name : String) : Prop := ∀ c ∈ name.toList, isLettered c = false

theorem mapM_eq_ok {α β : Type} {f : α → Outcome β} {g : α → β} {xs : List α}
    (h : ∀ x ∈ xs, f x = .ok (g x)) : xs.mapM f = .ok (xs.map g) := by
  induction xs with
  | nil => rfl
  | cons x xs ih =>
    rw [List.mapM_cons, h x List.mem_cons_self, ih fun y hy => h y (List.mem_cons_of_mem _ hy)]
    rfl

theorem isPlainName_name {member field : String → Prop} {t : StoreType}
    (h : t.WellFormed member field) : isPlainName t.name = true := by
  cases h with
  | scalar plain _ _ => exact plain
  | @enumeration width _ _ _ _ => cases width <;> (rw [StoreType.name]; decide)
  | _ =>
    rw [StoreType.name]
    decide

/-- A type that stands for an argument is not parted into a name and a type. -/
theorem splitName_render {member field : String → Prop} {t : StoreType}
    (h : t.WellFormed member field) : splitName t.render.toList = (none, t.render.toList) := by
  rw [StoreType.render_eq_applied]
  exact splitName_applied (isPlainName_name h)

theorem toList_applied_singleton (name arg : String) :
    (StoreType.applied name [arg]).toList = name.toList ++ '(' :: (arg.toList ++ [')']) := by
  rw [toList_applied (List.cons_ne_nil _ _), List.map_singleton, joined,
    List.intercalate_singleton]

/-- A record's text is read field by field. -/
theorem read_nested_fields {fields : List (String × StoreType)} (hfields : fields ≠ []) :
    ∃ type, ValueType.read (StoreType.nested fields).render.toList = (do
      return .nested "Nested" (← (splitArguments (joined (fields.map fun f =>
        f.1.toList ++ ([' '] ++ f.2.render.toList)))).mapM (readField type))) := by
  have htext : (StoreType.nested fields).render.toList = "Nested".toList ++ '(' ::
      (joined (fields.map fun f => f.1.toList ++ ([' '] ++ f.2.render.toList)) ++ [')']) := by
    rw [StoreType.render, StoreType.renderFields_eq_map, toList_applied (by simpa using hfields),
      List.map_map]
    simp only [Function.comp_def, toList_fieldText]
  exact ⟨_, read_nested htext⟩

/-- The text of a well-formed column type is read as the type of its values, with the names that
are read back for those that were written. -/
theorem read_render_renamed {member : String → Prop} {t : StoreType}
    (h : t.WellFormed member IsWord) :
    ValueType.read t.render.toList = .ok (t.value.rename respelled bare) := by
  induction h with
  | scalar plain known _ =>
    rw [StoreType.render, StoreType.value, known, Option.getD_some,
      StoreType.rename_of_scalar? known]
    exact read_scalar plain known
  | @enumeration width members nonempty _ _ =>
    have hargs := splitArguments_texts (members.map StoreType.memberText) fun a ha => by
      obtain ⟨m, _, rfl⟩ := List.mem_map.mp ha
      exact isArgument_memberText m
    rw [StoreType.render, read_enumeration (toList_applied (by simpa using nonempty)), hargs,
      List.map_map, List.mapM_map,
      mapM_eq_ok (g := fun m => { m with name := respelled m.name }) fun m _ => ?_]
    · rw [StoreType.value, ValueType.rename]
      rfl
    · rw [Function.comp, Function.comp, readMember_memberText]
  | array _ ih =>
    rw [StoreType.render, read_array (toList_applied_singleton _ _), ih]
    rfl
  | @map key value _ hkey hvalue ihkey ihvalue =>
    have hargs : splitArguments (joined ([key.render, value.render].map String.toList)) =
        [key.render.toList, value.render.toList] := by
      apply splitArguments_texts
      intro a ha
      rcases List.mem_cons.mp ha with rfl | ha
      · exact isArgument_render hkey
      · rw [List.mem_singleton.mp ha]
        exact isArgument_render hvalue
    rw [StoreType.render, read_map (toList_applied (List.cons_ne_nil _ _)) hargs, ihkey, ihvalue]
    rfl
  | @tuple items nonempty hitems ih =>
    have hargs := splitArguments_texts (items.map StoreType.render) fun a ha => by
      obtain ⟨t, ht, rfl⟩ := List.mem_map.mp ha
      exact isArgument_render (hitems t ht)
    rw [StoreType.render, StoreType.renderAll_eq_map,
      read_tuple (toList_applied (by simpa using nonempty)), hargs, List.map_map, List.mapM_map,
      mapM_eq_ok (g := fun t => t.value.rename respelled bare) fun t ht => ?_]
    · rw [StoreType.value, StoreType.valueAll_eq_map, ValueType.rename, ValueType.renameAll_eq_map,
        List.map_map]
      rfl
    · rw [Function.comp, Function.comp, splitName_render (hitems t ht)]
      exact ih t ht
  | @nested fields nonempty named hfields ih =>
    have hargs : ∀ x ∈ fields.map fun f => f.1.toList ++ ([' '] ++ f.2.render.toList),
        IsPiece x := by
      intro x hx
      obtain ⟨f, hf, rfl⟩ := List.mem_map.mp hx
      exact isPiece_field (named f hf).isLabel (isArgument_render (hfields f hf)).isPiece
    obtain ⟨type, hread⟩ := read_nested_fields nonempty
    rw [hread, splitArguments_joined hargs, List.mapM_map,
      mapM_eq_ok (g := fun f => (bare f.1, f.2.value.rename respelled bare)) fun f hf => ?_]
    · rw [StoreType.value, StoreType.valueFields_eq_map, ValueType.rename,
        ValueType.renameFields_eq_map, List.map_map]
      rfl
    · have htype := isArgument_render (hfields f hf)
      rw [Function.comp, readField_field (named f hf).isLabel htype.trimmed htype.nonempty, ih f hf]
      rfl
  | nullable _ _ _ ih =>
    rw [StoreType.render, read_nullable (toList_applied_singleton _ _), ih]
    rfl
  | lowCardinality _ ih =>
    rw [StoreType.render, read_lowCardinality (toList_applied_singleton _ _), ih]
    rfl

/-- The text of a well-formed column type is read as the type of its values where its names are
those that are read back. -/
theorem read_render {t : StoreType} (h : t.WellFormed IsReadable (isPlainName · = true)) :
    ValueType.read t.render.toList = .ok t.value := by
  rw [read_render_renamed (h.imp (fun _ hn => hn) fun _ hn => isWord_of_isPlainName hn),
    StoreType.rename_value h (fun _ hn => respelled_eq_self hn) fun _ hn => bare_of_isPlainName hn]

end TypeText

/-- A value type that the store can keep is read back from the text of its column type in its
normal form. -/
theorem TypeDefaults.resolved_type_reads_back_as_normal_form {d : TypeDefaults} {o : TypeOptions}
    {t : ValueType} {text : String}
    (hmembers : ∀ n ∈ t.memberNames, ∀ c ∈ n.toList, TypeText.isLettered c = false)
    (hfields : ∀ n ∈ t.fieldNames, Text.isPlainName n = true)
    (h : d.resolve o t = .ok text) :
    ValueType.ofStoreText text = .ok (t.withDefault o).normal := by
  obtain ⟨c, hc, htext⟩ := Outcome.bind_eq_ok.mp h
  cases htext
  obtain ⟨hwell, hvalue⟩ := stores_columnType hmembers hfields hc
  rw [← hvalue]
  exact TypeText.read_render hwell

/-- Quotes, commas, parentheses and `=` stand in the names of members and of time zones. -/
theorem record_reads_back_with_its_names :
    let d : TypeDefaults := { timezone := some "A, (b" }
    let moment := ValueType.tuple
      [.int8, .int8, .int8, .int8, .int8, .int8, .bool, .tuple [.dateTimeOffset, .bytes]]
    let members := [EnumMember.mk "it's = (1, 2)" 1, EnumMember.mk "\\" (-2)]
    let kind := ValueType.map .string (.nullable (.enumeration ⟨"Kind", members⟩))
    let tags := ValueType.nullable (.array (.nullable .string))
    let text := "Nested(moment Tuple(Int8, Int8, Int8, Int8, Int8, Int8, Bool, " ++
      "DateTime64(3, 'A, (b'), String), " ++
      "kind Map(String, Nullable(Enum8('it\\'s = (1, 2)' = 1, '\\\\' = -2))), " ++
      "tags Array(Nullable(String)))"
    d.resolve {} (.nested "Event" [("moment", moment), ("kind", kind), ("tags", tags)]) =
        .ok text ∧
      ValueType.ofStoreText text = .ok (.nested "Nested"
        [("moment", .tuple
          [.int8, .int8, .int8, .int8, .int8, .int8, .bool, .dateTime, .string]),
        ("kind", .map .string (.nullable (.enumeration ⟨"Enum8", members⟩))),
        ("tags", .array (.nullable .string))]) := by
  intro d moment members kind tags text
  let scalar := fun name => StoreType.scalar name []
  let stored := StoreType.nested
    [("moment", .tuple [scalar "Int8", scalar "Int8", scalar "Int8", scalar "Int8",
      scalar "Int8", scalar "Int8", scalar "Bool",
      .scalar "DateTime64" [toString 3, Text.literal "A, (b"], scalar "String"]),
    ("kind", .map (scalar "String") (.nullable (.enumeration .byte members))),
    ("tags", .array (.nullable (scalar "String")))]
  have htext : stored.render = text := by decide +kernel
  let event := ValueType.nested "Event" [("moment", moment), ("kind", kind), ("tags", tags)]
  have hresolve : d.resolve {} event = .ok text := by
    rw [← htext]
    rfl
  have hwritten : (event.memberNames.all fun n =>
      n.toList.all fun c => !TypeText.isLettered c) = true := by decide
  have hmembers : ∀ n ∈ event.memberNames, ∀ c ∈ n.toList, TypeText.isLettered c = false := by
    intro n hn c hc
    simpa using List.all_eq_true.mp (List.all_eq_true.mp hwritten n hn) c hc
  exact ⟨hresolve, TypeDefaults.resolved_type_reads_back_as_normal_form hmembers (by decide)
    hresolve⟩

end ColumnStore
