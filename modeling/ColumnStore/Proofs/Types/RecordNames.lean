-- The names of a record's fields in its column type. They stand as they are
-- between the separators that a record is read by, so a record comes back with
-- its fields, whatever their types are, exactly where each name is a word that
-- no separator stands in and that nothing is taken off.
import ColumnStore.Proofs.Types.Stability
import Mathlib.Data.List.TakeWhile

namespace ColumnStore

open ColumnStore.Text

namespace TypeText

/-! ## Names in front of a type -/

variable {type name : String} {cs : List Char} {t : ValueType}

/-- What is read as a field is a name without an opening parenthesis and, behind a blank, a type. -/
theorem readField_eq_ok (h : readField type cs = .ok (name, t)) :
    '(' ∉ cs.takeWhile (fun c => !isBlank c) ∧
      name = bare (.ofList (cs.takeWhile fun c => !isBlank c)) ∧
      trim (cs.dropWhile fun c => !isBlank c) ≠ [] ∧
      ValueType.read (trim (cs.dropWhile fun c => !isBlank c)) = .ok t := by
  unfold readField splitName at h
  dsimp only at h
  split_ifs at h with hnone
  simp only [Bool.or_eq_true, not_or, Bool.not_eq_true, List.isEmpty_eq_false_iff,
    List.contains_eq_mem, decide_eq_false_iff_not] at hnone
  obtain ⟨read, hread, heq⟩ := Outcome.bind_pure_eq_ok.mp h
  cases heq
  exact ⟨hnone.1.2, by rw [bare, String.toList_ofList], hnone.1.1, hread⟩

/-- A name that was read has no blank and no opening parenthesis in it. -/
theorem unbroken_of_readField (h : readField type cs = .ok (name, t)) :
    ∀ c ∈ name.toList, isBlank c = false ∧ c ≠ '(' := by
  obtain ⟨hopening, rfl, _, _⟩ := readField_eq_ok h
  intro c hc
  rw [bare, String.toList_ofList, String.toList_ofList] at hc
  have hhead := mem_of_mem_trimChar (mem_of_mem_trimChar hc)
  refine ⟨by simpa using List.mem_takeWhile_imp hhead, ?_⟩
  rintro rfl
  exact hopening hhead

/-- A text without blanks is no field. -/
theorem readField_ne_ok_of_unbroken (h : ∀ c ∈ cs, isBlank c = false) :
    readField type (trim cs) ≠ .ok (name, t) := by
  intro hread
  obtain ⟨_, _, htype, _⟩ := readField_eq_ok hread
  rw [trim_eq_self_of_unbroken h, List.dropWhile_eq_nil_iff.mpr fun c hc => by simp [h c hc]] at htype
  exact htype rfl

/-- The parts of a field behind a name that has no blank in it. -/
theorem readField_unbroken {front : String} (hfront : ∀ c ∈ front.toList, isBlank c = false)
    (hne : front ≠ "") (hcs : trim cs = cs) (hcsne : cs ≠ [])
    (h : readField type (trim (front.toList ++ ([' '] ++ cs))) = .ok (name, t)) :
    name = bare front ∧ ValueType.read cs = .ok t := by
  have hword : ∀ c ∈ front.toList, (!isBlank c) = true := fun c hc => by simp [hfront c hc]
  rw [trim_between (trim_eq_self_of_unbroken hfront) hcs (by simpa using hne) hcsne] at h
  obtain ⟨_, hname, _, hread⟩ := readField_eq_ok h
  have hblank : ∀ c, ([' '] ++ cs).head? = some c → (!isBlank c) = false := by
    rintro _ ⟨⟩
    rfl
  obtain ⟨hfront, hbehind⟩ := span_append hword hblank
  rw [hfront, String.ofList_toList] at hname
  rw [hbehind, List.singleton_append, trim_cons_blank, hcs] at hread
  exact ⟨hname, hread⟩

/-! ## Names that part a record -/

/-- A text without an opening parenthesis is parted by a comma in it, or else belongs to the first
piece of all that stands behind it. -/
theorem pieces_append (hopening : '(' ∉ cs) (place : Place) :
    (∃ front back, cs = front ++ ',' :: back ∧ Closes [','] place 0 front) ∨
      ∃ behind, (behind = .plain → Closes [','] place 0 cs) ∧
        ∀ rest, pieces place 0 (cs ++ rest) = (pieces behind 0 rest).modifyHead (cs ++ ·) := by
  induction cs generalizing place with
  | nil =>
    refine .inr ⟨place, fun hplain => ⟨hplain, rfl⟩, fun rest => ?_⟩
    cases hrest : pieces place 0 rest with
    | nil => exact absurd hrest (pieces_ne_nil _ _ _)
    | cons p ps => simp [hrest]
  | cons c cs ih =>
    by_cases hcomma : place = .plain ∧ c = ','
    · obtain ⟨rfl, rfl⟩ := hcomma
      exact .inl ⟨[], cs, rfl, rfl, rfl⟩
    · have hdepth : (advance place 0 c).2 = 0 := by
        have hc : c ≠ '(' := fun heq => hopening (heq ▸ List.mem_cons_self)
        unfold advance
        split
        · rfl
        · rfl
        · split_ifs <;> rfl
      have hbar : place = .plain → 0 = 0 → c ∉ [','] := by
        intro hplain _ hc
        exact hcomma ⟨hplain, by simpa using hc⟩
      rcases ih (fun hmem => hopening (List.mem_cons_of_mem _ hmem)) (advance place 0 c).1 with
        ⟨front, back, rfl, hfront⟩ | ⟨behind, hclosed, hpieces⟩
      · exact .inl ⟨c :: front, back, rfl, hbar, by rwa [hdepth]⟩
      · refine .inr ⟨behind, fun hplain => ⟨hbar, by rw [hdepth]; exact hclosed hplain⟩,
          fun rest => ?_⟩
        rw [List.cons_append, pieces, if_neg (by tauto), hdepth, hpieces]
        cases hrest : pieces behind 0 rest with
        | nil => exact absurd hrest (pieces_ne_nil _ _ _)
        | cons p ps => rfl

/-- The type of a moment in the zone `,`. Its text tells which names leave a quote open: behind
such a name the comma stands outside quotes. -/
def momentText : List Char := "DateTime64(3, ',')".toList

/-- A field whose type is written with a comma in quotes. -/
def momentField (name : String) : List Char := name.toList ++ ([' '] ++ momentText)

theorem closes_momentField (h : Closes [','] .plain 0 name.toList) :
    Closes [','] .plain 0 (momentField name) := by
  rw [momentField]
  exact h.append (by decide)

/-- Behind an open quote the text of the type is parted at its comma. -/
theorem pieces_momentText {place : Place} (hplace : place ≠ .plain) (rest : List Char) :
    ∃ ps, pieces place 0 ([' '] ++ momentText ++ rest) =
      ([' '] ++ "DateTime64(3, '".toList) :: ps := by
  have hparted : Closes [','] place 0 ([' '] ++ "DateTime64(3, '".toList) := by
    cases place with
    | plain => exact absurd rfl hplace
    | quoted => decide
    | escaped => decide
  have hsplit : [' '] ++ momentText =
      ([' '] ++ "DateTime64(3, '".toList) ++ [',', '\'', ')'] := by decide
  rw [hsplit, List.append_assoc]
  exact ⟨_, pieces_append_comma hparted⟩

/-- An opening parenthesis that no parenthesis at the end closes makes a text unreadable. -/
theorem read_unbalanced (h : shape (trim cs) = .unbalanced) :
    ValueType.read cs = .error (.mapping (.ofList (trim cs)) .unbalanced) := by
  rw [ValueType.read]
  simp only [h]

/-- The first field of a record is read with its name only where the name is a label without quotes
around it. -/
theorem isLabel_of_readField {p : List Char} {args ps : List (List Char)}
    (hpieces : (pieces .plain 0 (joined (momentField name :: args))).map trim = p :: ps)
    (h : readField type p = .ok (name, t)) : IsLabel name ∧ bare name = name := by
  have hunbroken := unbroken_of_readField h
  have hquiet : ∀ c ∈ name.toList, isBlank c = false := fun c hc => (hunbroken c hc).1
  have hopening : '(' ∉ name.toList := fun hmem => (hunbroken _ hmem).2 rfl
  obtain ⟨rest, hjoined⟩ := exists_joined_cons (momentField name) args
  have htext : joined (momentField name :: args) =
      name.toList ++ ([' '] ++ momentText ++ rest) := by
    rw [hjoined, momentField, List.append_assoc]
  have hwhole : Closes [','] .plain 0 name.toList → p = trim (momentField name) := by
    intro hclosed
    obtain ⟨_, hfirst, -⟩ := map_trim_pieces_joined_cons args (closes_momentField hclosed)
    rw [hpieces] at hfirst
    exact (List.cons.inj hfirst).1
  have hne : name ≠ "" := by
    rintro rfl
    obtain rfl := hwhole (by decide)
    exact absurd (readField_eq_ok h).1 (by decide)
  rcases pieces_append hopening .plain with
    ⟨front, back, hname, hfront⟩ | ⟨behind, hclosed, hbehind⟩
  · -- The piece ends inside the name, so no type stands behind it.
    rw [htext, hname, List.append_assoc, List.cons_append, pieces_append_comma hfront,
      List.map_cons] at hpieces
    obtain ⟨rfl, -⟩ := List.cons.inj hpieces
    have hblank : ∀ c ∈ front, isBlank c = false := fun c hc => hquiet c (by simp [hname, hc])
    exact absurd h (readField_ne_ok_of_unbroken hblank)
  · by_cases hplain : behind = .plain
    · have hclosed := hclosed hplain
      obtain rfl := hwhole hclosed
      have hbare := (readField_unbroken hquiet hne (by decide) (by decide) h).1
      exact ⟨⟨hclosed, hunbroken, hne⟩, hbare.symm⟩
    · obtain ⟨qs, hparted⟩ := pieces_momentText hplain rest
      rw [htext, hbehind, hparted, List.modifyHead_cons, List.map_cons] at hpieces
      obtain ⟨rfl, -⟩ := List.cons.inj hpieces
      have hread := (readField_unbroken hquiet hne (by decide) (by decide) h).2
      rw [read_unbalanced rfl] at hread
      cases hread

/-- A record of moments is read with its names only where each of them is a label without quotes
around it. -/
theorem isLabel_of_fields {names : List String} {fields : List (String × ValueType)}
    {ps : List (List Char)}
    (hpieces : ps <+: (pieces .plain 0 (joined (names.map momentField))).map trim)
    (hread : List.Forall₂ (fun p f => readField type p = .ok f) ps fields)
    (hnames : fields.map (·.1) = names) : ∀ n ∈ names, IsLabel n ∧ bare n = n := by
  induction names generalizing ps fields with
  | nil => nofun
  | cons name names ih =>
    cases hread with
    | nil => cases hnames
    | @cons p f ps fields hp hps =>
      obtain ⟨rfl, hrestNames⟩ := List.cons.inj hnames
      obtain ⟨more, hmore⟩ := hpieces
      have hfirst := isLabel_of_readField hmore.symm hp
      refine List.forall_mem_cons.mpr ⟨hfirst, ?_⟩
      obtain ⟨qs, hqs, hrest⟩ := map_trim_pieces_joined_cons (names.map momentField)
        (closes_momentField hfirst.1.closes)
      by_cases hend : names = []
      · simp [hend]
      · refine ih ⟨more, ?_⟩ hps hrestNames
        rw [← hrest (by simpa using hend)]
        rw [List.map_cons, hqs] at hmore
        exact (List.cons.inj hmore).2

/-- Splitting leaves out at most an empty last argument. -/
theorem splitArguments_initial (args : List Char) :
    splitArguments args <+: (pieces .plain 0 args).map trim := by
  unfold splitArguments
  dsimp only
  split
  · exact List.dropLast_prefix _
  · exact List.prefix_refl _

end TypeText

/-! ## Records -/

namespace TypeDefaults

open TypeText

variable {d : TypeDefaults} {o : TypeOptions} {record text : String}
  {fields : List (String × ValueType)}

theorem stored_ne_nil {stored : List (String × StoreType)} (hfields : fields ≠ [])
    (h : d.fieldTypes o fields = .ok stored) : stored ≠ [] := by
  rintro rfl
  rw [fieldTypes_eq_mapM] at h
  exact hfields (List.forall₂_nil_right_iff.mp (Outcome.mapM_eq_ok.mp h))

/-- A record is mapped where it has a field and each of its fields is mapped. -/
theorem resolve_nested_eq_ok : d.resolve o (.nested record fields) = .ok text ↔
    o.lowCardinality = false ∧ fields ≠ [] ∧
      ∃ stored, d.fieldTypes o fields = .ok stored ∧ text = (StoreType.nested stored).render := by
  constructor
  · intro h
    obtain ⟨c, hc, htext⟩ := Outcome.bind_eq_ok.mp h
    cases htext
    obtain ⟨_, hstored, hlow, hshape⟩ := storeType_of_columnType hc
    rw [storeType] at hstored
    split_ifs at hstored with hempty
    · cases hstored
    obtain ⟨stored, hfields, heq⟩ := Outcome.bind_eq_ok.mp hstored
    cases heq
    have hplain : o.lowCardinality = false := by
      cases hlowCardinality : o.lowCardinality with
      | false => rfl
      | true => cases hlow hlowCardinality
    rcases hshape with ⟨_, heq, _⟩ | ⟨_, rfl⟩
    · cases heq
    · refine ⟨hplain, by simpa using hempty, stored, hfields, ?_⟩
      rw [hplain]
      rfl
  · rintro ⟨hplain, hfields, stored, hstored, rfl⟩
    unfold resolve columnType
    rw [storeType, if_neg (by simpa using hfields), hstored, hplain]
    rfl

/-- The text of a mapped type is an argument, and what it is read as on its own. -/
theorem read_of_storeType {t : ValueType} {c : StoreType} (hinner : ∀ n ∈ t.fieldNames, IsWord n)
    (h : d.storeType o t = .ok c) :
    IsArgument c.render.toList ∧ ValueType.read c.render.toList = .ok t.reread := by
  have hstores : StoreType.Stores (fun _ => True) IsWord c t :=
    stores_storeType t (fun _ _ => trivial) hinner h
  refine ⟨isArgument_render hstores.wellFormed, ?_⟩
  rw [read_render_renamed hstores.wellFormed, hstores.value_eq]
  rfl

/-- The fields of a record, where their names are labels and the names inside their types are words,
are split apart and read one by one. -/
theorem readFields_stored {stored : List (String × StoreType)}
    (hfields : ∀ f ∈ fields, IsLabel f.1 ∧ ∀ n ∈ f.2.fieldNames, IsWord n)
    (h : d.fieldTypes o fields = .ok stored) (type : String) :
    List.Forall₂
      (fun text f => IsPiece text ∧ readField type text = .ok (bare f.1, f.2.reread))
      (stored.map fun f => f.1.toList ++ ([' '] ++ f.2.render.toList)) fields := by
  rw [fieldTypes_eq_mapM] at h
  have hall := (List.forall₂_and_left _ _).mpr ⟨hfields, Outcome.mapM_eq_ok.mp h⟩
  refine List.forall₂_map_left_iff.mpr (hall.imp ?_).flip
  rintro f c ⟨⟨hlabel, hinner⟩, hc⟩
  obtain ⟨stored, hstored, rfl⟩ := Outcome.bind_pure_eq_ok.mp hc
  obtain ⟨htype, hread⟩ := read_of_storeType hinner hstored
  refine ⟨isPiece_field hlabel htype.isPiece, ?_⟩
  rw [readField_field hlabel htype.trimmed htype.nonempty, hread]
  rfl

/-- A record whose names are labels is read back as its fields, without the quotes around names. -/
theorem ofStoreText_of_labels
    (hfields : ∀ f ∈ fields, IsLabel f.1 ∧ ∀ n ∈ f.2.fieldNames, IsWord n)
    (h : d.resolve o (.nested record fields) = .ok text) :
    ValueType.ofStoreText text =
      .ok (.nested "Nested" (fields.map fun f => (bare f.1, f.2.reread))) := by
  obtain ⟨_, hne, stored, hstored, rfl⟩ := resolve_nested_eq_ok.mp h
  obtain ⟨type, htext⟩ := read_nested_fields (stored_ne_nil hne hstored)
  obtain ⟨hpieces, hread⟩ := (List.forall₂_and_left _ _).mp
    (readFields_stored hfields hstored type)
  rw [ValueType.ofStoreText, htext, splitArguments_joined hpieces,
    Outcome.mapM_eq_ok.mpr (List.forall₂_map_right_iff.mpr hread)]
  rfl

/-- Moments in the zone `,` are written with the comma in quotes. -/
theorem fieldTypes_moments (names : List String) :
    ∃ stored, ({ timezone := some "," } : TypeDefaults).fieldTypes {}
        (names.map fun n => (n, .dateTime)) = .ok stored ∧
      stored.map (fun f => f.1.toList ++ ([' '] ++ f.2.render.toList)) =
        names.map momentField := by
  let moment := StoreType.scalar "DateTime64" [toString 3, literal ","]
  have hmoment : moment.render = "DateTime64(3, ',')" := by decide +kernel
  refine ⟨names.map fun n => (n, moment), ?_, ?_⟩
  · rw [fieldTypes_eq_mapM, List.mapM_map]
    exact mapM_eq_ok fun n _ => rfl
  · rw [List.map_map]
    refine List.map_congr_left fun n _ => ?_
    rw [Function.comp, hmoment]
    rfl

/-- Records with the same names of fields are read back with these names and no others, each before
its type as that is read on its own, whatever the types and the options are, exactly where each name
is a word without an opening parenthesis, closes its quotes, has no comma outside them, and has no
double quotes and no backticks around it. -/
theorem record_fields_read_back_iff {names : List String} :
    (∀ (d : TypeDefaults) (o : TypeOptions) (record : String)
        (fields : List (String × ValueType)) (text : String),
      fields.map (·.1) = names → (∀ f ∈ fields, ∀ n ∈ f.2.fieldNames, IsWord n) →
      d.resolve o (.nested record fields) = .ok text →
      ValueType.ofStoreText text =
        .ok (.nested "Nested" (fields.map fun f => (f.1, f.2.reread)))) ↔
    ∀ n ∈ names, IsLabel n ∧ bare n = n := by
  constructor
  · intro h
    by_cases hempty : names = []
    · simp [hempty]
    let moments := names.map fun n => (n, ValueType.dateTime)
    have hmoments : moments ≠ [] := by simpa [moments] using hempty
    obtain ⟨stored, hstored, htexts⟩ := fieldTypes_moments names
    have hread := h { timezone := some "," } {} "" moments _ (by simp [moments, Function.comp_def])
      (by simp [moments, ValueType.fieldNames])
      (resolve_nested_eq_ok.mpr ⟨rfl, hmoments, stored, hstored, rfl⟩)
    obtain ⟨type, htext⟩ := read_nested_fields (stored_ne_nil hmoments hstored)
    rw [ValueType.ofStoreText, htext, htexts] at hread
    obtain ⟨fields, hfields, heq⟩ := Outcome.bind_pure_eq_ok.mp hread
    refine isLabel_of_fields (splitArguments_initial _) (Outcome.mapM_eq_ok.mp hfields) ?_
    rw [(ValueType.nested.inj heq).2]
    simp [moments, Function.comp_def]
  · intro hnames d o record fields text hmap hinner h
    have hname : ∀ f ∈ fields, IsLabel f.1 ∧ bare f.1 = f.1 :=
      fun f hf => hnames f.1 (hmap ▸ List.mem_map_of_mem hf)
    have hbare : fields.map (fun f => (bare f.1, f.2.reread)) =
        fields.map fun f => (f.1, f.2.reread) :=
      List.map_congr_left fun f hf => by rw [(hname f hf).2]
    rw [ofStoreText_of_labels (fun f hf => ⟨(hname f hf).1, hinner f hf⟩) h, hbare]

/-- A comma in quotes and a closing parenthesis part nothing. -/
theorem quoted_comma_in_name_is_kept :
    let line := ValueType.nested "Line" [("'a,b'", .int8), ("Total)", .nullable .bytes)]
    let text := "Nested('a,b' Int8, Total) Nullable(String))"
    ({} : TypeDefaults).resolve {} line = .ok text ∧
      ValueType.ofStoreText text =
        .ok (.nested "Nested" [("'a,b'", .int8), ("Total)", .nullable .string)]) := by
  intro line text
  have hresolve : ({} : TypeDefaults).resolve {} line = .ok text := by rfl
  have hquiet : (["'a,b'", "Total)"].all fun n =>
      n.toList.all fun c => !isBlank c && c != '(') = true := by decide
  have hunbroken : ∀ n ∈ ["'a,b'", "Total)"], ∀ c ∈ n.toList, isBlank c = false ∧ c ≠ '(' := by
    intro n hn c hc
    simpa using List.all_eq_true.mp (List.all_eq_true.mp hquiet n hn) c hc
  have hnames : ∀ n ∈ ["'a,b'", "Total)"], IsLabel n ∧ bare n = n := by
    intro n hn
    have hname := hunbroken n hn
    rcases List.mem_cons.mp hn with rfl | hn
    · exact ⟨⟨by decide, hname, by decide⟩, by decide⟩
    · obtain rfl := List.mem_singleton.mp hn
      exact ⟨⟨by decide, hname, by decide⟩, by decide⟩
  exact ⟨hresolve, record_fields_read_back_iff.mpr hnames {} {} "Line" _ text rfl
    (by simp [ValueType.fieldNames]) hresolve⟩

/-- A parenthesis behind a blank is taken for the start of the type, and a name with a separator in
it for two fields. -/
theorem separators_in_names_are_read :
    let price := ValueType.nested "Line" [("Price (EUR)", .int8)]
    let role := ValueType.nested "Line" [("Id Int8, Role", .string)]
    ({} : TypeDefaults).resolve {} price = .ok "Nested(Price (EUR) Int8)" ∧
      ValueType.ofStoreText "Nested(Price (EUR) Int8)" =
        .error (.mapping "(EUR) Int8" .unbalanced) ∧
      ({} : TypeDefaults).resolve {} role = .ok "Nested(Id Int8, Role String)" ∧
      ValueType.ofStoreText "Nested(Id Int8, Role String)" =
        .ok (.nested "Nested" [("Id", .int8), ("Role", .string)]) := by
  intro price role
  have hrefused : ValueType.ofStoreText "Nested(Price (EUR) Int8)" =
      .error (.mapping "(EUR) Int8" .unbalanced) := by
    have hfield : splitArguments "Price (EUR) Int8".toList = ["Price (EUR) Int8".toList] := by
      decide
    have hname : splitName "Price (EUR) Int8".toList =
        (some "Price".toList, "(EUR) Int8".toList) := by decide
    have htext : "Nested(Price (EUR) Int8)".toList =
        "Nested".toList ++ '(' :: ("Price (EUR) Int8".toList ++ [')']) := by rfl
    rw [ValueType.ofStoreText, read_nested htext, hfield, List.mapM_cons, readField, hname]
    dsimp only
    rw [read_unbalanced rfl]
    rfl
  let pair := ValueType.nested "Nested" [("Id", .int8), ("Role", .string)]
  have hpair : ({} : TypeDefaults).resolve {} pair = .ok "Nested(Id Int8, Role String)" := by rfl
  have hwords : ∀ n ∈ pair.fieldNames, IsWord n := fun n hn =>
    isWord_of_isPlainName (List.all_eq_true.mp (by decide : pair.fieldNames.all isPlainName) n hn)
  exact ⟨by rfl, hrefused, by rfl, ofStoreText_of_resolve hwords hpair⟩

end TypeDefaults

end ColumnStore
