-- Parentheses in the texts of column types. A text is taken apart at its first
-- and its last parenthesis and at its commas, and some of what comes out is not
-- looked at again: the arguments of a type that needs none, the names in front
-- of other types and the members of an enumeration. A text that is accepted has
-- its parentheses in order where these parts have.
import ColumnStore.Proofs.Types.RoundTrip

namespace ColumnStore

open ColumnStore.Text

namespace TypeText

/-! ## Texts in order -/

/-- The parentheses outside quotes are closed, and none is closed before it is opened. What stands
behind an open quote does not count. -/
def Paired (place : Place) (depth : Nat) : List Char → Prop
  | [] => depth = 0
  | c :: cs => ¬(place = .plain ∧ depth = 0 ∧ c = ')') ∧
      Paired (advance place depth c).1 (advance place depth c).2 cs

instance decidablePaired : (place : Place) → (depth : Nat) → (cs : List Char) →
    Decidable (Paired place depth cs)
  | _, depth, [] => inferInstanceAs (Decidable (depth = 0))
  | place, depth, c :: cs =>
    have := decidablePaired (advance place depth c).1 (advance place depth c).2 cs
    inferInstanceAs (Decidable (¬(place = .plain ∧ depth = 0 ∧ c = ')') ∧
      Paired (advance place depth c).1 (advance place depth c).2 cs))

/-- Within parentheses the text leaves everything in order. It may close the parentheses around it
where it opens them again. -/
structure Enclosed (cs : List Char) : Prop where
  balanced : Balanced ('(' :: (cs ++ [')']))

variable {place : Place} {depth : Nat} {xs ys cs : List Char}

theorem paired_of_closes (h : Closes [')'] place depth cs) : Paired place depth cs := by
  induction cs generalizing place depth with
  | nil => exact h.2
  | cons c cs ih =>
    refine ⟨?_, ih h.2⟩
    rintro ⟨hplace, hdepth, rfl⟩
    exact h.1 hplace hdepth List.mem_cons_self

/-- What is in order but for an open quote is not in order within parentheses: the quote hides the
closing one. -/
theorem closes_or_not_paired (h : Paired place depth cs) :
    Closes [')'] place depth cs ∨ ¬Paired place (depth + 1) (cs ++ [')']) := by
  induction cs generalizing place depth with
  | nil =>
    obtain rfl : depth = 0 := h
    cases place with
    | plain => exact .inl ⟨rfl, rfl⟩
    | quoted | escaped => exact .inr (by decide)
  | cons c cs ih =>
    have hbar : place = .plain → depth = 0 → c ≠ ')' := fun hp hd hc => h.1 ⟨hp, hd, hc⟩
    rcases ih h.2 with hcloses | hpaired
    · exact .inl ⟨fun hp hd => by simpa using hbar hp hd, hcloses⟩
    · refine .inr fun hnested => hpaired ?_
      have hrest := hnested.2
      rwa [advance_succ hbar] at hrest

theorem Balanced.enclosed (h : Balanced cs) : Enclosed cs := ⟨(sealed_parenthesised h).balanced⟩

theorem Enclosed.closes (h : Enclosed cs) : Closes [')'] .plain 1 (cs ++ [')']) :=
  h.balanced.closes.2

theorem enclosed_of_closes (h : Closes [')'] .plain 1 (cs ++ [')'])) : Enclosed cs :=
  ⟨⟨fun _ _ => by decide, h⟩⟩

/-- Behind a text within parentheses another one may stand within the same parentheses. -/
theorem closes_append_of_closes (hx : Closes [')'] place depth (xs ++ [')']))
    (hy : Closes [')'] .plain 1 ys) : Closes [')'] place depth (xs ++ ys) := by
  induction xs generalizing place depth with
  | nil =>
    obtain ⟨hbar, hplace, hdepth⟩ := hx
    cases place with
    | quoted | escaped => cases hplace
    | plain =>
      have hne : depth ≠ 0 := fun hzero => hbar rfl hzero List.mem_cons_self
      have hone : depth - 1 = 0 := hdepth
      obtain rfl : depth = 1 := by omega
      exact hy
  | cons x xs ih => exact ⟨hx.1, ih hx.2⟩

theorem Enclosed.append (hx : Enclosed xs) (hy : Enclosed ys) : Enclosed (xs ++ ys) := by
  apply enclosed_of_closes
  rw [List.append_assoc]
  exact closes_append_of_closes hx.closes hy.closes

theorem balanced_ordinary (h : ∀ c ∈ cs, isOrdinary c = true) : Balanced cs := by
  refine ⟨closes_ordinary fun c hc => ⟨h c hc, ?_⟩⟩
  rintro hmem
  obtain rfl := List.mem_singleton.mp hmem
  have := h _ hc
  cases this

theorem isOrdinary_of_isBlank {c : Char} (h : isBlank c = true) : isOrdinary c = true := by
  have hne : ∀ x, isBlank x = false → c ≠ x := by
    rintro x hx rfl
    rw [h] at hx
    cases hx
  simp [isOrdinary, hne '\'' rfl, hne '(' rfl, hne ')' rfl]

theorem Enclosed.intercalate {texts : List (List Char)} (h : ∀ x ∈ texts, Enclosed x) :
    Enclosed ([','].intercalate texts) := by
  induction texts with
  | nil => exact (balanced_ordinary (List.forall_mem_nil _)).enclosed
  | cons x texts ih =>
    have hx := h x List.mem_cons_self
    cases texts with
    | nil => simpa using hx
    | cons y texts =>
      have hcomma : Enclosed [','] := (balanced_ordinary (by simp [isOrdinary])).enclosed
      rw [List.intercalate_cons_cons]
      exact (hx.append hcomma).append (ih fun z hz => h z (List.mem_cons_of_mem _ hz))

/-- Trimming takes nothing but blanks from both ends. -/
theorem exists_blanks_around (cs : List Char) : ∃ front back, cs = front ++ (trim cs ++ back) ∧
    (∀ c ∈ front, isBlank c = true) ∧ ∀ c ∈ back, isBlank c = true := by
  refine ⟨cs.takeWhile isBlank, ((cs.dropWhile isBlank).reverse.takeWhile isBlank).reverse,
    ?_, fun c hc => List.mem_takeWhile_imp hc, fun c hc => ?_⟩
  · rw [trim, trimEnd, ← List.reverse_append, List.takeWhile_append_dropWhile, List.reverse_reverse,
      List.takeWhile_append_dropWhile]
  · exact List.mem_takeWhile_imp (List.mem_reverse.mp hc)

theorem balanced_of_trim (h : Balanced (trim cs)) : Balanced cs := by
  obtain ⟨front, back, hcs, hfront, hback⟩ := exists_blanks_around cs
  rw [hcs]
  exact (balanced_ordinary fun c hc => isOrdinary_of_isBlank (hfront c hc)).append
    (h.append (balanced_ordinary fun c hc => isOrdinary_of_isBlank (hback c hc)))

theorem enclosed_of_trim (h : Enclosed (trim cs)) : Enclosed cs := by
  obtain ⟨front, back, hcs, hfront, hback⟩ := exists_blanks_around cs
  rw [hcs]
  exact (balanced_ordinary fun c hc => isOrdinary_of_isBlank (hfront c hc)).enclosed.append
    (h.append (balanced_ordinary fun c hc => isOrdinary_of_isBlank (hback c hc)).enclosed)

/-! ## Taking texts apart -/

/-- The parts of a text: the types that it is read on from, and the rest, which is taken as it
is. -/
structure Parts where
  types : List (List Char)
  loose : List (List Char)
  deriving DecidableEq

/-- What stands in front of the type in an element, if a name does. -/
def frontName (element : List Char) : List Char :=
  if (splitName element).1.isSome then element.takeWhile fun c => !isBlank c else []

def partsOf (name : String) (args : List Char) : Parts :=
  if (scalar? name).isSome then ⟨[], [args]⟩
  else if name ∈ ["Nullable", "LowCardinality", "Array"] then ⟨[args], []⟩
  else if name = "Map" then ⟨splitArguments args, []⟩
  else if name ∈ ["Tuple", "Nested"] then
    ⟨(splitArguments args).map fun element => (splitName element).2,
      (splitArguments args).map frontName⟩
  else ⟨[], splitArguments args⟩

/-- The parts of a text with arguments; another text has none. -/
def parts (s : List Char) : Parts :=
  match shape (trim s) with
  | .applied name args _ => partsOf name args
  | _ => ⟨[], []⟩

/-- The text is taken as it is where the type is read from `s`, at any depth. -/
inductive PassesOver : List Char → List Char → Prop
  | here {s x : List Char} (h : x ∈ (parts s).loose) : PassesOver s x
  | within {s part x : List Char} (h : part ∈ (parts s).types) (hx : PassesOver part x) :
    PassesOver s x

theorem passesOver_iff {s x : List Char} : PassesOver s x ↔
    x ∈ (parts s).loose ∨ ∃ part ∈ (parts s).types, PassesOver part x := by
  constructor
  · rintro (h | ⟨h, hx⟩)
    · exact .inl h
    · exact .inr ⟨_, h, hx⟩
  · rintro (h | ⟨part, h, hx⟩)
    · exact .here h
    · exact .within h hx

/-! ## Parts in order -/

variable {s args : List Char} {name : String} {t : ValueType}

theorem intercalate_pieces (place : Place) (depth : Nat) (cs : List Char) :
    [','].intercalate (pieces place depth cs) = cs := by
  induction cs generalizing place depth with
  | nil => simp [pieces]
  | cons c cs ih =>
    rw [pieces]
    split
    · rename_i hcomma
      obtain ⟨p, ps, hps⟩ := List.exists_cons_of_ne_nil (pieces_ne_nil .plain 0 cs)
      rw [hps, List.intercalate_cons_cons, ← hps, ih, hcomma.2.2]
      rfl
    · split
      · rename_i hnil
        exact absurd hnil (pieces_ne_nil _ _ _)
      · rename_i p ps hps
        have hcs := ih (advance place depth c).1 (advance place depth c).2
        rw [hps] at hcs
        rw [← hcs]
        cases ps with
        | nil => simp
        | cons q qs => simp [List.intercalate_cons_cons]

/-- Splitting leaves out blanks and an empty argument at the end. -/
theorem trim_mem_splitArguments {p : List Char} (h : p ∈ pieces .plain 0 args) :
    trim p ∈ splitArguments args ∨ trim p = [] := by
  have hmem : trim p ∈ (pieces .plain 0 args).map trim := List.mem_map_of_mem h
  unfold splitArguments
  dsimp only
  split
  · rename_i hlast
    rw [← List.dropLast_append_getLast? _ hlast] at hmem
    rcases List.mem_append.mp hmem with hmem | hmem
    · exact .inl hmem
    · exact .inr (List.mem_singleton.mp hmem)
  · exact .inl hmem

theorem enclosed_of_splitArguments (h : ∀ x ∈ splitArguments args, Enclosed x) :
    Enclosed args := by
  rw [← intercalate_pieces .plain 0 args]
  apply Enclosed.intercalate
  intro p hp
  apply enclosed_of_trim
  rcases trim_mem_splitArguments hp with hmem | hempty
  · exact h _ hmem
  · rw [hempty]
    exact (balanced_ordinary (List.forall_mem_nil _)).enclosed

theorem splitName_cases (element : List Char) : splitName element = (none, element) ∨
    ∃ name, splitName element = (some name, trim (element.dropWhile fun c => !isBlank c)) := by
  unfold splitName
  dsimp only
  split
  · exact .inl rfl
  · exact .inr ⟨_, rfl⟩

theorem enclosed_of_splitName {element : List Char} (hname : Enclosed (frontName element))
    (htype : Enclosed (splitName element).2) : Enclosed element := by
  unfold frontName at hname
  rcases splitName_cases element with heq | ⟨name, heq⟩
  · rwa [heq] at htype
  · rw [heq] at hname htype
    rw [← List.takeWhile_append_dropWhile (p := fun c => !isBlank c) (l := element)]
    exact Enclosed.append hname (enclosed_of_trim htype)

/-- The arguments of a type are in order within its parentheses where their parts are. -/
theorem enclosed_arguments (htypes : ∀ part ∈ (partsOf name args).types, Enclosed part)
    (hloose : ∀ x ∈ (partsOf name args).loose, Enclosed x) : Enclosed args := by
  unfold partsOf at htypes hloose
  split_ifs at htypes hloose
  · exact hloose args List.mem_cons_self
  · exact htypes args List.mem_cons_self
  · exact enclosed_of_splitArguments htypes
  · apply enclosed_of_splitArguments
    intro x hx
    exact enclosed_of_splitName (hloose _ (List.mem_map_of_mem hx))
      (htypes _ (List.mem_map_of_mem hx))
  · exact enclosed_of_splitArguments hloose

theorem shape_eq_applied {shorter : args.length < s.length}
    (h : shape s = .applied name args shorter) :
    ∃ head, s = head ++ '(' :: (args ++ [')']) ∧ trim head = name.toList := by
  unfold shape at h
  split at h
  · cases h
  · rename_i c rest hdrop
    split at h
    · rename_i hlast
      cases h
      have hopening : c = '(' := by
        have hc := List.head?_dropWhile_not (fun c => decide (c ≠ '(')) s
        rw [hdrop] at hc
        simpa using hc
      rw [hopening] at hdrop
      refine ⟨s.takeWhile (· ≠ '('), ?_, by rw [String.toList_ofList]⟩
      rw [List.dropLast_append_getLast? _ hlast, ← hdrop, List.takeWhile_append_dropWhile]
    · cases h

theorem parts_of_shape {shorter : args.length < (trim s).length}
    (hshape : shape (trim s) = .applied name args shorter) : parts s = partsOf name args := by
  unfold parts
  rw [hshape]

/-- A text whose outermost name is a plain one is in order where its parts are. -/
theorem balanced_of_parts {shorter : args.length < (trim s).length}
    (hshape : shape (trim s) = .applied name args shorter) (hname : isPlainName name = true)
    (htypes : ∀ part ∈ (parts s).types, Enclosed part)
    (hloose : ∀ x ∈ (parts s).loose, Enclosed x) : Balanced s := by
  rw [parts_of_shape hshape] at htypes hloose
  obtain ⟨head, hs, hhead⟩ := shape_eq_applied hshape
  apply balanced_of_trim
  rw [hs]
  refine Balanced.append (balanced_of_trim ?_) (enclosed_arguments htypes hloose).balanced
  rw [hhead]
  exact (isArgument_plainName hname).closed.balanced

/-! ## Accepted texts -/

theorem isPlainName_of_scalar? (h : scalar? name = some t) : isPlainName name = true := by
  unfold scalar? at h
  split at h <;> first | decide | cases h

/-- A text is accepted where it is the name of a type without arguments, or where it is a name with
arguments and the types in them are accepted. -/
theorem read_eq_ok (h : ValueType.read s = .ok t) :
    isPlainName (String.ofList (trim s)) = true ∨
      ∃ name args shorter, shape (trim s) = .applied name args shorter ∧ isPlainName name = true ∧
        ∀ part ∈ (partsOf name args).types, ∃ u, ValueType.read part = .ok u := by
  rw [ValueType.read] at h
  dsimp only at h
  split at h
  · cases h
  · split at h
    · rename_i hscalar
      exact .inl (isPlainName_of_scalar? hscalar)
    · cases h
  rename_i name args shorter hshape
  refine .inr ⟨name, args, shorter, hshape, ?_⟩
  split at h
  · rename_i hscalar
    refine ⟨isPlainName_of_scalar? hscalar, ?_⟩
    rw [partsOf, if_pos (by rw [hscalar]; rfl)]
    exact List.forall_mem_nil _
  split at h
  · obtain ⟨u, hu, _⟩ := Outcome.map_eq_ok.mp h
    exact ⟨by decide, List.forall_mem_singleton.mpr ⟨u, hu⟩⟩
  · exact ⟨by decide, List.forall_mem_singleton.mpr ⟨t, h⟩⟩
  · obtain ⟨u, hu, _⟩ := Outcome.map_eq_ok.mp h
    exact ⟨by decide, List.forall_mem_singleton.mpr ⟨u, hu⟩⟩
  · split at h
    · rename_i key value hargs
      obtain ⟨u, hu, h⟩ := Outcome.bind_eq_ok.mp h
      obtain ⟨v, hv, _⟩ := Outcome.bind_eq_ok.mp h
      refine ⟨by decide, ?_⟩
      show ∀ part ∈ splitArguments args, _
      rw [hargs]
      exact List.forall_mem_cons.mpr ⟨⟨u, hu⟩, List.forall_mem_singleton.mpr ⟨v, hv⟩⟩
    · cases h
  · obtain ⟨items, hitems, _⟩ := Outcome.bind_eq_ok.mp h
    refine ⟨by decide, List.forall_mem_map.mpr fun element hmem => ?_⟩
    exact Outcome.exists_mapM_eq_ok.mp ⟨items, hitems⟩ ⟨element, hmem⟩ (List.mem_attach _ _)
  · obtain ⟨fields, hfields, _⟩ := Outcome.bind_eq_ok.mp h
    refine ⟨by decide, List.forall_mem_map.mpr fun element hmem => ?_⟩
    obtain ⟨field, hfield⟩ :=
      Outcome.exists_mapM_eq_ok.mp ⟨fields, hfields⟩ ⟨element, hmem⟩ (List.mem_attach _ _)
    split at hfield
    · cases hfield
    · obtain ⟨u, hu, _⟩ := Outcome.bind_pure_eq_ok.mp hfield
      exact ⟨u, hu⟩
  · exact ⟨by decide, List.forall_mem_nil _⟩
  · exact ⟨by decide, List.forall_mem_nil _⟩
  · exact ⟨by decide, List.forall_mem_nil _⟩
  · cases h

theorem length_lt_of_mem_types {part : List Char} (h : part ∈ (parts s).types) :
    part.length < s.length := by
  unfold parts at h
  split at h
  · rename_i name args shorter _
    have hshorter := Nat.lt_of_lt_of_le shorter (length_trim_le s)
    refine Nat.lt_of_le_of_lt ?_ hshorter
    unfold partsOf at h
    split_ifs at h
    · cases h
    · rw [List.mem_singleton.mp h]
    · exact length_of_mem_splitArguments h
    · obtain ⟨element, hmem, rfl⟩ := List.mem_map.mp h
      exact Nat.le_trans (length_splitName_le element) (length_of_mem_splitArguments hmem)
    · cases h
  · cases h

theorem balanced_of_plainName (hname : isPlainName (String.ofList (trim s)) = true) :
    Balanced s := by
  have hword := (isArgument_plainName hname).closed.balanced
  rw [String.toList_ofList] at hword
  exact balanced_of_trim hword

/-- An accepted text is in order where everything that was passed over in it is. -/
theorem balanced_of_read {s : List Char} {t : ValueType} (h : ValueType.read s = .ok t)
    (hparts : ∀ x, PassesOver s x → Enclosed x) : Balanced s := by
  rcases read_eq_ok h with hname | ⟨name, args, shorter, hshape, hname, htypes⟩
  · exact balanced_of_plainName hname
  · have heq := parts_of_shape hshape
    refine balanced_of_parts hshape hname (fun part hpart => ?_) fun x hx => hparts x (.here hx)
    have hlt := length_lt_of_mem_types hpart
    obtain ⟨u, hu⟩ := htypes part (heq ▸ hpart)
    exact (balanced_of_read hu fun x hx => hparts x (.within hpart hx)).enclosed
termination_by s.length

/-! ## Parts out of order -/

theorem parts_applied {text : List Char} (hname : isPlainName name = true)
    (htext : text = name.toList ++ '(' :: (args ++ [')'])) : parts text = partsOf name args := by
  obtain ⟨_, hshape⟩ := shape_trim hname htext
  exact parts_of_shape hshape

/-- A type that needs no arguments, with any arguments. -/
def byteText (x : List Char) : List Char := "Int8".toList ++ '(' :: (x ++ [')'])

theorem read_byteText (x : List Char) : ValueType.read (byteText x) = .ok .int8 := by
  have hx : (String.ofList x).toList = x := String.toList_ofList
  have h : ValueType.read (StoreType.applied "Int8" [.ofList x]).toList = .ok .int8 :=
    read_scalar (by decide) rfl
  rwa [toList_applied_singleton, hx] at h

theorem passesOver_byteText {x y : List Char} : PassesOver (byteText x) y ↔ y = x := by
  have hparts : parts (byteText x) = ⟨[], [x]⟩ := parts_applied (by decide) rfl
  rw [passesOver_iff, hparts]
  simp

/-- An array of such a type. -/
def byteArrayText (x : List Char) : List Char := "Array".toList ++ '(' :: (byteText x ++ [')'])

theorem read_byteArrayText (x : List Char) :
    ValueType.read (byteArrayText x) = .ok (.array .int8) := by
  rw [byteArrayText, read_array rfl, read_byteText]
  rfl

theorem passesOver_byteArrayText {x y : List Char} :
    PassesOver (byteArrayText x) y ↔ y = x := by
  have hparts : parts (byteArrayText x) = ⟨[byteText x], []⟩ := parts_applied (by decide) rfl
  rw [passesOver_iff, hparts]
  simp [passesOver_byteText]

/-- Whatever is not in order within parentheses is all that is passed over in some accepted text
that is not in order: in a type with arguments or, if that hides no more than an open quote, in an
array of it. -/
theorem exists_accepted_of_not_enclosed {x : List Char} (hx : ¬Enclosed x) :
    ∃ s, (∀ y, PassesOver s y ↔ y = x) ∧ ¬Paired .plain 0 s ∧ ∃ t, ValueType.read s = .ok t := by
  by_cases hpaired : Paired .plain 0 (byteText x)
  · refine ⟨byteArrayText x, fun y => passesOver_byteArrayText, fun harray => ?_, _,
      read_byteArrayText x⟩
    have hnested : Paired .plain 1 (byteText x ++ [')']) := harray.2.2.2.2.2.2
    rcases closes_or_not_paired hpaired with hcloses | hopen
    · exact hx ⟨⟨hcloses.2.2.2.2⟩⟩
    · exact hopen hnested
  · exact ⟨byteText x, fun y => passesOver_byteText, hpaired, _, read_byteText x⟩

/-! ## The law -/

/-- Texts whose parentheses outside quotes are not in order are refused wherever `P` holds of the
parts that are passed over in them, exactly if `P` only holds of what is in order within
parentheses. -/
theorem unpaired_texts_are_refused_iff_parts_are_enclosed (P : List Char → Prop) :
    (∀ text : String, ¬Paired .plain 0 text.toList → (∀ x, PassesOver text.toList x → P x) →
      ∃ fault, ValueType.ofStoreText text = .error fault) ↔ ∀ x, P x → Enclosed x := by
  constructor
  · intro hrefused x hx
    by_contra henclosed
    obtain ⟨s, hpasses, hpaired, t, ht⟩ := exists_accepted_of_not_enclosed henclosed
    obtain ⟨fault, hfault⟩ := hrefused (.ofList s) (by rwa [String.toList_ofList]) fun y hy => by
      rw [String.toList_ofList] at hy
      rwa [(hpasses y).mp hy]
    rw [ValueType.ofStoreText, String.toList_ofList, ht] at hfault
    cases hfault
  · intro henclosed text hpaired hparts
    apply Outcome.eq_error_of_ne_ok
    intro t ht
    have hbalanced := balanced_of_read ht fun x hx => henclosed x (hparts x hx)
    exact hpaired (paired_of_closes hbalanced.closes)

/-- The parenthesis of an array is open behind a type whose arguments are passed over. -/
theorem open_array_is_refused :
    let text := "Map(Decimal(18, 4), Array(Int8)"
    ¬Paired .plain 0 text.toList ∧ PassesOver text.toList "18, 4".toList ∧
      (∀ x, PassesOver text.toList x → Enclosed x) ∧
      ∃ fault, ValueType.ofStoreText text = .error fault := by
  intro text
  have hmap : parts text.toList = ⟨["Decimal(18, 4)".toList, "Array(Int8".toList], []⟩ := by decide
  have hdecimal : parts "Decimal(18, 4)".toList = ⟨[], ["18, 4".toList]⟩ := by decide
  have harray : parts "Array(Int8".toList = ⟨[], []⟩ := by decide
  have hpasses : ∀ x, PassesOver text.toList x ↔ x = "18, 4".toList := by
    intro x
    rw [passesOver_iff, hmap]
    simp only [List.not_mem_nil, false_or, List.mem_cons, or_false, exists_eq_or_imp,
      exists_eq_left, passesOver_iff (s := "Decimal(18, 4)".toList), hdecimal,
      passesOver_iff (s := "Array(Int8".toList), harray, false_and, exists_false]
  have hparts : ∀ x, PassesOver text.toList x → Enclosed x := by
    intro x hx
    rw [(hpasses x).mp hx]
    exact ⟨⟨by decide⟩⟩
  have hpaired : ¬Paired .plain 0 text.toList := by decide
  have hrefused := (unpaired_texts_are_refused_iff_parts_are_enclosed Enclosed).mpr fun _ hx => hx
  exact ⟨hpaired, (hpasses _).mpr rfl, hparts, hrefused text hpaired hparts⟩

/-- A parenthesis is left open in the arguments of a type, and one is closed in a name that was not
opened, and both texts are accepted. -/
theorem unpaired_arguments_are_accepted :
    ¬Paired .plain 0 "Decimal((18, 4)".toList ∧
      ValueType.ofStoreText "Decimal((18, 4)" = .ok .decimal ∧
      ¬Paired .plain 0 "Tuple(a) Int8)".toList ∧
      ValueType.ofStoreText "Tuple(a) Int8)" = .ok (.tuple [.int8]) := by
  have hdecimal : ValueType.ofStoreText "Decimal((18, 4)" = .ok .decimal :=
    @read_scalar "Decimal" ["(18, 4"] _ (by decide) rfl
  have hbyte : ValueType.read "Int8".toList = .ok .int8 :=
    @read_scalar "Int8" [] _ (by decide) rfl
  have htuple : ValueType.ofStoreText "Tuple(a) Int8)" = .ok (.tuple [.int8]) := by
    have htext : "Tuple(a) Int8)".toList =
        "Tuple".toList ++ '(' :: ("a) Int8".toList ++ [')']) := by decide
    have hitems : splitArguments "a) Int8".toList = ["a) Int8".toList] := by decide
    have hname : splitName "a) Int8".toList = (some "a)".toList, "Int8".toList) := by decide
    rw [ValueType.ofStoreText, read_tuple htext, hitems, List.mapM_cons, hname, hbyte]
    rfl
  exact ⟨by decide, hdecimal, by decide, htuple⟩

end TypeText

end ColumnStore
