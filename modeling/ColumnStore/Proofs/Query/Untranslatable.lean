-- What the store has nothing for is refused wherever it stands. An expression
-- that cannot be lowered stops the lowering of every expression that it is a
-- part of, also of those that drop a part of theirs: what is dropped are
-- constants and columns, which can always be lowered.
import ColumnStore.Proofs.Query.Success
import ColumnStore.Query.Select
import Mathlib.Logic.Relation

namespace ColumnStore

namespace Expr

/-! ## Parts -/

def isLambda : Expr → Bool
  | lambda _ _ => true
  | _ => false

/-- Whether the method is one of a collection's that take a lambda over its elements. -/
def TakesLambda (bindings : Bindings) (target : Expr) (method : String) : Prop :=
  (target.type? bindings).bind Receiver.ofType? = some .array ∧
    method ∈ ["Any", "All", "First", "FirstOrDefault", "Last", "LastOrDefault", "Count", "Where",
      "Select", "Sum", "Min", "Max"]

/-- An expression and the lambda parameters in scope. -/
abbrev Scoped := Bindings × Expr

/-- The scope of a lambda's body. -/
def within (parameters : List String) (element : Option ValueType) (bindings : Bindings) :
    Bindings := parameters.map (·, element) ++ bindings

/-- The first is a direct part of the second. Of a lambda that a method takes, the body is one. -/
inductive IsPart : Scoped → Scoped → Prop
  | body {b ps body} : IsPart (within ps none b, body) (b, .lambda ps body)
  | left {b op left right} : IsPart (b, left) (b, .binary op left right)
  | right {b op left right} : IsPart (b, right) (b, .binary op left right)
  | not {b operand} : IsPart (b, operand) (b, .not operand)
  | negate {b operand} : IsPart (b, operand) (b, .negate operand)
  | member {b target name} : IsPart (b, target) (b, .member target name)
  | receiver {b target method arguments} : IsPart (b, target) (b, .call target method arguments)
  | argument {b target method arguments a} (mem : a ∈ arguments)
      (stray : a.isLambda = true → ¬TakesLambda b target method) :
      IsPart (b, a) (b, .call target method arguments)
  | selection {b target method arguments ps body} (mem : .lambda ps body ∈ arguments)
      (taken : TakesLambda b target method) :
      IsPart (within ps ((target.type? b).bind ValueType.element?) b, body)
        (b, .call target method arguments)
  | operand {b cls name arguments a} (mem : a ∈ arguments) :
      IsPart (b, a) (b, .function cls name arguments)
  | indexed {b target index} : IsPart (b, target) (b, .index target index)
  | index {b target index} : IsPart (b, index) (b, .index target index)
  | base {b target path} : IsPart (b, target) (b, .jsonPath target path)
  | test {b test whenTrue whenFalse} : IsPart (b, test) (b, .conditional test whenTrue whenFalse)
  | whenTrue {b test whenTrue whenFalse} :
      IsPart (b, whenTrue) (b, .conditional test whenTrue whenFalse)
  | whenFalse {b test whenTrue whenFalse} :
      IsPart (b, whenFalse) (b, .conditional test whenTrue whenFalse)
  | preferred {b left right} : IsPart (b, left) (b, .coalesce left right)
  | fallback {b left right} : IsPart (b, right) (b, .coalesce left right)
  | converted {b operand type} : IsPart (b, operand) (b, .convert operand type)

/-- The first stands in the second, at any depth. -/
def Occurs : Scoped → Scoped → Prop := Relation.ReflTransGen IsPart

/-- The store has nothing for the expression, whatever its parts are. -/
inductive Untranslatable (d : TypeDefaults) : Scoped → Prop
  | foreign {b description} : Untranslatable d (b, .foreign description)
  | lambda {b ps body} : Untranslatable d (b, .lambda ps body)
  | unbound {b name} (h : b.lookup name = none) : Untranslatable d (b, .var name)
  | parameter {b name type} (h : ∀ text, d.resolve {} type ≠ .ok text) :
      Untranslatable d (b, .parameter name type)
  | convert {b operand type} (h : ∀ text, d.resolve {} type ≠ .ok text) :
      Untranslatable d (b, .convert operand type)

end Expr

/-! ## Lowerings that fail -/

namespace Lowering

variable {α β : Type}

def Fails (act : Lowering α) : Prop := ∀ ps r, act.run ps ≠ .ok r

theorem Fails.refuse (e : Expr) (cause : QueryCause) :
    Fails (Lowering.refuse e cause : Lowering α) :=
  fun _ _ => run_refuse_ne_ok

theorem Fails.bind {act : Lowering α} (h : Fails act) (next : α → Lowering β) :
    Fails (act >>= next) := by
  intro ps r hrun
  obtain ⟨a, qs, ha, _⟩ := run_bind_eq_ok.mp hrun
  exact h ps _ ha

/-- A step that fails fails whatever stands in front of it. -/
theorem Fails.after {next : α → Lowering β} (h : ∀ a, Fails (next a)) (act : Lowering α) :
    Fails (act >>= next) := by
  intro ps r hrun
  obtain ⟨a, qs, _, hb⟩ := run_bind_eq_ok.mp hrun
  exact h a qs r hb

theorem Fails.map {act : Lowering α} (h : Fails act) (f : α → β) : Fails (f <$> act) := by
  rw [← bind_pure_comp]
  exact h.bind _

theorem Fails.liftM {act : Outcome α} (h : ∀ a, act ≠ .ok a) :
    Fails (MonadLiftT.monadLift act : Lowering α) := by
  intro ps r hrun
  obtain ⟨a, ha, _⟩ := run_liftM_eq_ok.mp hrun
  exact h a ha

theorem Fails.mapM {f : α → Lowering β} {a : α} {l : List α} (h : Fails (f a)) (ha : a ∈ l) :
    Fails (l.mapM f) := by
  induction l with
  | nil => cases ha
  | cons x l ih =>
    rw [List.mapM_cons]
    rcases List.mem_cons.mp ha with rfl | ha
    · exact h.bind _
    · exact Fails.after (fun _ => (ih ha).bind _) _

end Lowering

open Lowering

/-! ## One part -/

/-- The expression cannot be lowered, and is no constant that could be dropped. -/
structure Stuck (d : TypeDefaults) (x : Expr.Scoped) : Prop where
  fails : Fails (x.2.lower d x.1)
  notConstant : x.2.fold? = none

theorem Expr.Untranslatable.stuck {d : TypeDefaults} {x : Scoped} (h : Untranslatable d x) :
    Stuck d x := by
  cases h with
  | foreign =>
    refine ⟨?_, rfl⟩
    rw [Expr.lower]
    exact Fails.refuse _ _
  | lambda =>
    refine ⟨?_, rfl⟩
    rw [Expr.lower]
    exact Fails.refuse _ _
  | unbound h =>
    refine ⟨?_, rfl⟩
    rw [Expr.lower, boundVar, if_neg (by simp [h])]
    exact Fails.refuse _ _
  | parameter h =>
    refine ⟨?_, rfl⟩
    rw [Expr.lower, Lowering.parameter]
    split
    · exact (Fails.liftM h).bind _
    · exact Fails.refuse _ _
  | convert h =>
    refine ⟨?_, rfl⟩
    rw [Expr.lower]
    exact Fails.after (fun _ => (Fails.liftM h).bind _) _

variable {d : TypeDefaults} {b : Bindings}

theorem fold?_of_isNullConstant {e : Expr} (h : e.isNullConstant = true) : e.fold? ≠ none := by
  unfold Expr.isNullConstant at h
  split at h
  · exact Option.some_ne_none _
  · cases h

/-- An index is dropped where it folds, and only there. -/
theorem fails_shifted {e index : Expr} {lowered : Lowering Sql} (hfold : index.fold? = none)
    (h : Fails lowered) : Fails (shifted e index lowered) := by
  unfold shifted
  rw [hfold]
  exact h.bind _

/-- An operand is replaced where it is a constant, and only there. -/
theorem fails_against {peer : Option ValueType} {operand : Expr} {lowered : Lowering Sql}
    (hfold : operand.fold? = none) (h : Fails lowered) : Fails (against peer operand lowered) := by
  unfold against
  split
  · split
    iterate 3
      cases hfold
    exact h
  · exact h

/-- A field is read off a column, and a column can be lowered. -/
theorem fails_fieldArray {e target : Expr} {field : Option String}
    (h : Fails (target.lower d b)) : Fails (fieldArray e target field) := by
  unfold fieldArray
  split
  · rw [Expr.lower] at h
    exact absurd rfl (h [] _)
  · exact Fails.refuse _ _

/-- One argument that fails in every slot that it can have makes them all fail. -/
theorem fails_lowerArguments {call a : Expr} {element : Option ValueType} {es : List Expr}
    {slots : List Slot} (fits : List Slot → Prop) (hfits : fits slots)
    (htail : ∀ slots, fits slots → fits slots.tail)
    (ha : ∀ slots rest, fits slots → Fails (lowerArguments d b call element slots (a :: rest)))
    (hmem : a ∈ es) : Fails (lowerArguments d b call element slots es) := by
  induction es generalizing slots with
  | nil => cases hmem
  | cons e es ih =>
    rcases List.mem_cons.mp hmem with rfl | hmem
    · exact ha slots es hfits
    · have hrest := ih (htail slots hfits) hmem
      unfold lowerArguments
      dsimp only
      split
      · split
        · exact Fails.after (fun _ => hrest.bind _) _
        · exact (Fails.refuse _ _).bind _
      · exact (Fails.refuse _ _).bind _
      · exact (Fails.refuse _ _).bind _
      · exact Fails.after (fun _ => hrest.bind _) _
      · exact Fails.after (fun _ => hrest.bind _) _

theorem fails_lowerAll {a : Expr} {es : List Expr} (h : Fails (a.lower d b)) (hmem : a ∈ es) :
    Fails (lowerAll d b es) := by
  induction es with
  | nil => cases hmem
  | cons e es ih =>
    rw [lowerAll]
    rcases List.mem_cons.mp hmem with rfl | hmem
    · exact h.bind _
    · exact Fails.after (fun _ => (ih hmem).bind _) _

/-! ## Calls -/

/-- A method's arguments are lowered by its slots, and a selector's slot is a method's that takes
a lambda. -/
theorem takesLambda_of_selector {target : Expr} {method : String} {type : ValueType}
    {r : Receiver} {m : Method} {s : Signature} (htype : target.type? b = some type)
    (hr : Receiver.ofType? type = some r) (hm : Method.ofName? r method = some m)
    (hs : signature? m = some s) (h : Slot.selector ∈ s.slots) :
    Expr.TakesLambda b target method := by
  unfold Expr.TakesLambda
  rw [htype, Option.bind_some, hr]
  unfold Method.ofName? at hm
  split at hm
  · refine ⟨rfl, ?_⟩
    split at hm
    all_goals cases hm
    all_goals cases hs
    all_goals first
      | exact absurd h (by decide)
      | decide
  all_goals
    try split at hm
    all_goals cases hm
    all_goals cases hs
    all_goals exact absurd h (by decide)

theorem fails_call {target : Expr} {method : String} {arguments : List Expr}
    (h : ∀ e type r m s, target.type? b = some type → Receiver.ofType? type = some r →
      Method.ofName? r method = some m → signature? m = some s →
      Fails (lowerArguments d b e type.element? s.slots arguments)) :
    Fails ((Expr.call target method arguments).lower d b) := by
  unfold Expr.lower receiver
  dsimp only
  cases htype : target.type? b with
  | none => exact (Fails.refuse _ _).bind _
  | some type =>
    dsimp only
    cases hr : Receiver.ofType? type with
    | none => exact (Fails.refuse _ _).bind _
    | some r =>
      simp only [pure_bind]
      split
      · exact Fails.refuse _ _
      · rename_i m hm
        refine Fails.after (fun _ => ?_) _
        split
        · exact Fails.refuse _ _
        · rename_i s hs
          have harguments := h (.call target method arguments) type r m s htype hr hm hs
          split
          · exact Fails.refuse _ _
          · split
            · exact Fails.after (fun _ => harguments.bind _) _
            · exact harguments.bind _

/-- A lambda's body is lowered where the lambda is, with its parameter over the elements. -/
theorem fails_selection {target : Expr} {method : String} {arguments : List Expr}
    {ps : List String} {body : Expr}
    (h : Fails (body.lower d (Expr.within ps ((target.type? b).bind ValueType.element?) b)))
    (hmem : .lambda ps body ∈ arguments) :
    Fails ((Expr.call target method arguments).lower d b) := by
  apply fails_call
  intro e type r m s htype _ _ _
  rw [htype, Option.bind_some] at h
  have hstray : Fails ((Expr.lambda ps body).lower d b) := by
    rw [Expr.lower]
    exact Fails.refuse _ _
  refine fails_lowerArguments (fun _ => True) trivial (fun _ _ => trivial) ?_ hmem
  intro slots rest _
  unfold lowerArguments
  dsimp only
  split
  · rename_i heq
    obtain ⟨rfl, rfl⟩ := Expr.lambda.inj heq
    split
    · exact (h.map _).bind _
    · exact (Fails.refuse _ _).bind _
  · exact (Fails.refuse _ _).bind _
  · exact (Fails.refuse _ _).bind _
  · exact (fails_shifted rfl hstray).bind _
  · exact hstray.bind _

theorem fails_argument {target a : Expr} {method : String} {arguments : List Expr}
    (h : Stuck d (b, a)) (hmem : a ∈ arguments)
    (hstray : a.isLambda = true → ¬Expr.TakesLambda b target method) :
    Fails ((Expr.call target method arguments).lower d b) := by
  apply fails_call
  intro e type r m s htype hr hm hs
  have hselector : a.isLambda = true → Slot.selector ∉ s.slots := fun ha hmem =>
    hstray ha (takesLambda_of_selector htype hr hm hs hmem)
  refine fails_lowerArguments (fun slots => a.isLambda = true → Slot.selector ∉ slots)
    hselector (fun _ hslots ha hmem => hslots ha (List.mem_of_mem_tail hmem)) ?_ hmem
  intro slots rest hslots
  have hhead : slots.head? = some .selector → a.isLambda ≠ true := fun hslot ha =>
    hslots ha (List.mem_of_head? hslot)
  unfold lowerArguments
  dsimp only
  split
  · rename_i hslot
    exact absurd rfl (hhead hslot)
  · exact (Fails.refuse _ _).bind _
  · exact (Fails.refuse _ _).bind _
  · exact (fails_shifted h.notConstant h.fails).bind _
  · exact h.fails.bind _

/-! ## Every part -/

/-- What cannot be lowered stops the lowering of what it is a part of. -/
theorem Stuck.of_isPart {x y : Expr.Scoped} (h : Stuck d x) (hpart : Expr.IsPart x y) :
    Stuck d y := by
  obtain ⟨hfails, hfold⟩ := h
  cases hpart with
  | body =>
    refine ⟨?_, rfl⟩
    rw [Expr.lower]
    exact Fails.refuse _ _
  | @left b op left right =>
    refine ⟨?_, ?_⟩
    · unfold Expr.lower
      split
      · exact hfails.bind _
      · split
        · rename_i hnull
          exact absurd hfold (fold?_of_isNullConstant (Bool.and_eq_true_iff.mp hnull).2)
        · exact (fails_against hfold hfails).bind _
    · rw [Expr.fold?, hfold]
      rfl
  | @right b op left right =>
    refine ⟨?_, ?_⟩
    · unfold Expr.lower
      split
      · rename_i hnull
        exact absurd hfold (fold?_of_isNullConstant (Bool.and_eq_true_iff.mp hnull).2)
      · split
        · exact hfails.bind _
        · exact Fails.after (fun _ => (fails_against hfold hfails).bind _) _
    · rw [Expr.fold?, hfold]
      cases left.fold? <;> rfl
  | not =>
    refine ⟨?_, rfl⟩
    rw [Expr.lower]
    exact hfails.bind _
  | negate =>
    refine ⟨?_, ?_⟩
    · rw [Expr.lower]
      exact hfails.bind _
    · rw [Expr.fold?, hfold]
      rfl
  | member =>
    refine ⟨?_, rfl⟩
    unfold Expr.lower
    refine Fails.after ?_ _
    rintro ⟨r, type⟩
    dsimp only
    split
    · exact hfails.bind _
    · split
      · exact fails_fieldArray hfails
      · split
        · exact Fails.refuse _ _
        · exact hfails.bind _
  | receiver =>
    refine ⟨?_, rfl⟩
    unfold Expr.lower
    refine Fails.after ?_ _
    rintro ⟨r, type⟩
    dsimp only
    split
    · exact Fails.refuse _ _
    · exact hfails.bind _
  | argument mem stray => exact ⟨fails_argument ⟨hfails, hfold⟩ mem stray, rfl⟩
  | selection mem _ => exact ⟨fails_selection hfails mem, rfl⟩
  | operand mem =>
    refine ⟨?_, rfl⟩
    unfold Expr.lower
    dsimp only
    split
    · exact Fails.refuse _ _
    · exact (fails_lowerAll hfails mem).bind _
  | indexed =>
    refine ⟨?_, rfl⟩
    unfold Expr.lower
    refine Fails.after ?_ _
    rintro ⟨r, type⟩
    dsimp only
    split
    iterate 3 exact Fails.after (fun _ => hfails.bind _) _
    · exact hfails.bind _
    · exact Fails.refuse _ _
  | index =>
    refine ⟨?_, rfl⟩
    unfold Expr.lower
    refine Fails.after ?_ _
    rintro ⟨r, type⟩
    dsimp only
    split
    iterate 3 exact (fails_shifted hfold hfails).bind _
    · exact Fails.after (fun _ => hfails.bind _) _
    · exact Fails.refuse _ _
  | base =>
    refine ⟨?_, rfl⟩
    rw [Expr.lower]
    split
    · exact hfails.bind _
    · exact Fails.refuse _ _
  | test =>
    refine ⟨?_, rfl⟩
    rw [Expr.lower]
    exact hfails.bind _
  | whenTrue =>
    refine ⟨?_, rfl⟩
    rw [Expr.lower]
    exact Fails.after (fun _ => hfails.bind _) _
  | whenFalse =>
    refine ⟨?_, rfl⟩
    rw [Expr.lower]
    exact Fails.after (fun _ => Fails.after (fun _ => hfails.bind _) _) _
  | preferred =>
    refine ⟨?_, rfl⟩
    rw [Expr.lower]
    exact hfails.bind _
  | fallback =>
    refine ⟨?_, rfl⟩
    rw [Expr.lower]
    exact Fails.after (fun _ => hfails.bind _) _
  | converted =>
    refine ⟨?_, rfl⟩
    rw [Expr.lower]
    exact hfails.bind _

theorem Stuck.of_occurs {x y : Expr.Scoped} (h : Stuck d x) (hoccurs : Expr.Occurs x y) :
    Stuck d y := by
  induction hoccurs with
  | refl => exact h
  | tail _ hpart ih => exact ih.of_isPart hpart

/-! ## Queries -/

namespace Select

/-- The expressions of a query that are lowered. -/
def expressions (q : Select) : List Expr :=
  q.projections.map (·.1) ++ (q.filters ++ (q.groupBy ++ (q.having.toList ++
    (q.orderBy.map (·.1) ++ (q.limit.toList ++ q.offset.toList)))))

/-- A condition occurs in the conjunction that it is joined into. -/
theorem occurs_conjunction {e : Expr} {filters : List Expr} (h : e ∈ filters) :
    ∃ all, Expr.conjunction filters = some all ∧ Expr.Occurs ([], e) ([], all) := by
  cases filters with
  | nil => cases h
  | cons first rest =>
    refine ⟨_, rfl, ?_⟩
    have hjoin : ∀ acc, e ∈ acc :: rest ∨ Expr.Occurs ([], e) ([], acc) →
        Expr.Occurs ([], e) ([], rest.foldl (.binary .and) acc) := by
      clear h
      induction rest with
      | nil =>
        rintro acc (h | h)
        · rw [List.mem_singleton.mp h]
          exact .refl
        · exact h
      | cons next rest ih =>
        rintro acc (h | h)
        · rcases List.mem_cons.mp h with rfl | h
          · exact ih _ (Or.inr (.single .left))
          · rcases List.mem_cons.mp h with rfl | h
            · exact ih _ (Or.inr (.single .right))
            · exact ih _ (Or.inl (List.mem_cons_of_mem _ h))
        · exact ih _ (Or.inr (h.tail .left))
    exact hjoin first (Or.inl h)

theorem fails_body {q : Select} {e : Expr} (he : e ∈ q.expressions) (h : Stuck d ([], e))
    (source : String) (settings : List String) : Fails (q.body d source settings) := by
  have htext : ∀ {l : List Expr}, e ∈ l → Fails (l.mapM (lowerText d)) :=
    fun hl => Fails.mapM (h.fails.bind _) hl
  unfold body
  simp only [expressions, List.mem_append] at he
  -- The parts in front of the one that fails may well succeed.
  rcases he with he | he | he | he | he | he | he
  · obtain ⟨p, hp, rfl⟩ := List.mem_map.mp he
    have hprojection : Fails (projectionText d p) := (h.fails.bind _).bind _
    exact (hprojection.mapM hp).bind _
  · refine Fails.after (fun _ => ?_) _
    obtain ⟨all, hall, hoccurs⟩ := occurs_conjunction he
    have hfilter : Fails (lowerText d all) := (h.of_occurs hoccurs).fails.bind _
    rw [hall]
    exact (hfilter.mapM (List.mem_singleton_self all)).bind _
  · iterate 2 refine Fails.after (fun _ => ?_) _
    exact (htext he).bind _
  · iterate 3 refine Fails.after (fun _ => ?_) _
    exact (htext he).bind _
  · iterate 4 refine Fails.after (fun _ => ?_) _
    obtain ⟨o, ho, rfl⟩ := List.mem_map.mp he
    have horder : Fails (orderText d o) := (h.fails.bind _).bind _
    exact (horder.mapM ho).bind _
  · iterate 5 refine Fails.after (fun _ => ?_) _
    exact (htext he).bind _
  · iterate 6 refine Fails.after (fun _ => ?_) _
    exact (htext he).bind _

theorem prepare_eq_error_of_fails_body {q : Select} {t : QueryContext}
    (h : ∀ source settings, Fails (q.body t.types source settings)) :
    ∃ fault, q.prepare t = .error fault := by
  cases hprepare : q.prepare t with
  | error fault => exact ⟨fault, rfl⟩
  | ok prepared =>
    unfold prepare at hprepare
    obtain ⟨_, _, hprepare⟩ := Outcome.bind_eq_ok.mp hprepare
    obtain ⟨_, _, hprepare⟩ := Outcome.bind_eq_ok.mp hprepare
    obtain ⟨settings, _, hprepare⟩ := Outcome.bind_eq_ok.mp hprepare
    obtain ⟨r, hrun, _⟩ := Outcome.bind_eq_ok.mp hprepare
    exact absurd hrun (h _ settings [] r)

end Select

/-! ## The law -/

/-- An expression or a query with something in it that the store has nothing for is refused,
however deep it stands and in whichever clause. -/
theorem untranslatable_parts_are_refused (t : QueryContext) :
    (∀ e x, Expr.Occurs x ([], e) → Expr.Untranslatable t.types x →
      ∃ fault, Expr.prepare t.types e = .error fault) ∧
    ∀ (q : Select) e x, e ∈ q.expressions → Expr.Occurs x ([], e) →
      Expr.Untranslatable t.types x → ∃ fault, q.prepare t = .error fault := by
  constructor
  · intro e x hoccurs hx
    have hfails := (hx.stuck.of_occurs hoccurs).fails
    cases hprepare : Expr.prepare t.types e with
    | error fault => exact ⟨fault, rfl⟩
    | ok prepared =>
      obtain ⟨r, hrun, _⟩ := Outcome.bind_eq_ok.mp hprepare
      exact absurd hrun (hfails [] r)
  · intro q e x he hoccurs hx
    apply Select.prepare_eq_error_of_fails_body
    exact fun source settings => Select.fails_body he (hx.stuck.of_occurs hoccurs) source settings

/-- A name means nothing behind the lambda that binds it, also within another lambda. -/
theorem escaped_name_is_refused :
    let tags := Expr.call (.column none "Tags" (.array .string)) "All"
      [.lambda ["t"] (.binary .ne (.var "t") (.constant .null))]
    let condition := Expr.binary .eq (.var "p") (.var "t")
    let parts := Expr.call (.column none "Parts" (.array .string)) "Any"
      [.lambda ["p"] condition]
    let e := Expr.binary .and tags parts
    let q : Select := { table := "T", orderBy := [(e, true)] }
    let x : Expr.Scoped := ([("p", some .string)], .var "t")
    Expr.Occurs x ([], e) ∧ Expr.Untranslatable {} x ∧ e ∈ q.expressions ∧
      (∃ fault, Expr.prepare {} e = .error fault) ∧ ∃ fault, q.prepare {} = .error fault := by
  intro tags condition parts e q x
  have htaken : Expr.TakesLambda [] (.column none "Parts" (.array .string)) "Any" :=
    ⟨rfl, by decide⟩
  have hparts : Expr.IsPart ([("p", some .string)], condition) ([], parts) := by
    have hmem := List.mem_singleton_self (Expr.lambda ["p"] condition)
    exact Expr.IsPart.selection hmem htaken
  have hcondition : Expr.IsPart x ([("p", some .string)], condition) := .right
  have hoccurs : Expr.Occurs x ([], e) := .head hcondition (.head hparts (.single .right))
  have hx : Expr.Untranslatable {} x := .unbound (by decide)
  have he : e ∈ q.expressions := List.mem_singleton_self e
  obtain ⟨hexpr, hselect⟩ := untranslatable_parts_are_refused {}
  exact ⟨hoccurs, hx, he, hexpr e x hoccurs hx, hselect q e x he hoccurs hx⟩

end ColumnStore
