-- A lowering that keeps the lambda parameters on one stack. A lambda's parameter
-- is pushed in front of its body and popped behind it, also where the body is
-- refused. It gives what the lowering that hands the bindings down gives, leaves
-- the stack as it was, and looks at nothing but what is lexically in scope.
import ColumnStore.Proofs.Query.LexicalScope

namespace ColumnStore

open Lowering

/-! ## Lowering in place -/

/-- What a lowering in place works on. -/
structure Scope where
  /-- The stack of lambda parameters, the innermost first. -/
  lambdas : Bindings
  parameters : List BoundParameter
  /-- The expressions that the stack was asked about, each with the stack as it was then. -/
  asked : List Expr.Scoped

/-- What is refused leaves a scope behind, too. -/
abbrev InPlace := ExceptT Fault (StateM Scope)

namespace InPlace

variable {α : Type}

/-- The result and the scope that is left. -/
def exec (act : InPlace α) (scope : Scope) : Except Fault α × Scope := act.run.run scope

/-- A step that does not look at the stack. -/
def step (act : Lowering α) : InPlace α :=
  ExceptT.mk fun scope =>
    match act.run scope.parameters with
    | .ok (a, parameters) => (.ok a, { scope with parameters })
    | .error fault => (.error fault, scope)

/-- A step that looks at the stack on behalf of an expression. -/
def ask (e : Expr) (act : Bindings → Lowering α) : InPlace α := do
  let scope ← get
  set { scope with asked := scope.asked ++ [(scope.lambdas, e)] }
  step (act scope.lambdas)

def typeOf (e : Expr) : InPlace (Option ValueType) := ask e fun bindings => pure (e.type? bindings)

/-- Pushes a lambda's parameter, and pops what is on top of the stack then, whatever came of it. -/
def under (binding : String × Option ValueType) (act : InPlace α) : InPlace α :=
  ExceptT.mk fun scope =>
    let (answer, left) := act.exec { scope with lambdas := binding :: scope.lambdas }
    (answer, { left with lambdas := left.lambdas.tail })

/-- A constant has no parts, so nothing but the peer's type decides how it is lowered. -/
def against (peer : Option ValueType) (operand : Expr) (lowered : InPlace Sql) : InPlace Sql :=
  match operand with
  | .constant value => step (Lowering.against peer operand (pure (.raw value.literal)))
  | _ => lowered

def shifted (e index : Expr) (lowered : InPlace Sql) : InPlace Sql :=
  match index.fold? with
  | some _ => step (Lowering.shifted e index (refuse index .opaqueConstruct))
  | none => do
    let i ← lowered
    return .function "if" [.binary i ">=" (.raw "0"), .binary i "+" (.raw "1"), i]

/-- Whether the first argument may be null, as far as its type tells. -/
def firstIsNullable : List Expr → InPlace Bool
  | [] => pure true
  | first :: _ => (fun type => (type.map ValueType.isNullable).getD true) <$> typeOf first

end InPlace

open InPlace (step ask typeOf under)

mutual

/-- The SQL of the expression where the stack's parameters are in scope. -/
def Expr.lowerInPlace (d : TypeDefaults) : Expr → InPlace Sql
  | .column table name _ => pure (.identifier (Text.qualifiedName table name))
  | .constant value => pure (.raw value.literal)
  | .parameter name type => step (parameter d (.parameter name type) name type)
  | .var name => ask (.var name) fun bindings => boundVar (.var name) bindings name
  | .lambda ps body => step (refuse (.lambda ps body) .strayLambda)
  | .binary op left right =>
    if (op = .eq || op = .ne) && right.isNullConstant then do
      return .isNull (← left.lowerInPlace d) (op = .ne)
    else if (op = .eq || op = .ne) && left.isNullConstant then do
      return .isNull (← right.lowerInPlace d) (op = .ne)
    else do
      let leftType ← typeOf left
      let rightType ← typeOf right
      let l ← InPlace.against rightType left (left.lowerInPlace d)
      let r ← InPlace.against leftType right (right.lowerInPlace d)
      return combine op leftType rightType l r
  | .not operand => do return .not (← operand.lowerInPlace d)
  | .negate operand => do return .negate (← operand.lowerInPlace d)
  | .member target name => do
    let e := Expr.member target name
    let (r, type) ← ask target (receiver e target)
    if r = .json then return .subcolumn (← target.lowerInPlace d) (Text.quoteName name)
    else if hasField type name then step (fieldArray e target (some name))
    else match Member.ofName? r name with
      | none => step (refuse e (.unknownMember name type.display))
      | some m => do
        let t ← target.lowerInPlace d
        step (memberOf e target m t)
  | .call target method arguments => do
    let e := Expr.call target method arguments
    let (r, type) ← ask target (receiver e target)
    match Method.ofName? r method with
    | none => step (refuse e (.unknownMethod method type.display))
    | some m =>
      let t ← target.lowerInPlace d
      match signature? m with
      | none => step (refuse e .staticFunction)
      | some s =>
        if arguments.length < s.required || s.slots.length < arguments.length then
          step (refuse e (.methodArity method arguments.length))
        else
          let subject ← if s.onField then step (fieldArray e target none) else pure t
          return s.build subject (← lowerArgumentsInPlace d e type.element? s.slots arguments)
  | .function cls name arguments => do
    let e := Expr.function cls name arguments
    match (Receiver.ofClass? cls).bind (Method.ofName? · name) with
    | none => step (refuse e .unknownFunction)
    | some m =>
      let lowered ← lowerAllInPlace d arguments
      let nullable ← InPlace.firstIsNullable arguments
      step (staticCall e m nullable lowered)
  | .index target index => do
    let e := Expr.index target index
    let (r, _) ← ask target (receiver e target)
    match r with
    | .array | .string | .json => do
      let i ← InPlace.shifted e index (index.lowerInPlace d)
      return indexed r (← target.lowerInPlace d) i
    | .map => do
      let t ← target.lowerInPlace d
      return indexed r t (← index.lowerInPlace d)
    | _ => step (refuse e .notIndexable)
  | .jsonPath target path => do
    if (← typeOf target).any ValueType.isJson then
      let base ← target.lowerInPlace d
      step (alongPath (.jsonPath target path) base path)
    else step (refuse (.jsonPath target path) .pathOffJson)
  | .conditional test whenTrue whenFalse => do
    let test ← test.lowerInPlace d
    let whenTrue ← whenTrue.lowerInPlace d
    let whenFalse ← whenFalse.lowerInPlace d
    return .function "if" [test, whenTrue, whenFalse]
  | .coalesce left right => do
    let left ← left.lowerInPlace d
    let right ← right.lowerInPlace d
    return .function "ifNull" [left, right]
  | .convert operand type => do
    let operand ← operand.lowerInPlace d
    let typeName ← step (d.resolve {} type)
    return .cast operand typeName
  | .foreign description => step (refuse (.foreign description) .opaqueConstruct)

def lowerAllInPlace (d : TypeDefaults) : List Expr → InPlace (List Sql)
  | [] => pure []
  | e :: es => do
    let first ← e.lowerInPlace d
    let rest ← lowerAllInPlace d es
    return first :: rest

def lowerArgumentsInPlace (d : TypeDefaults) (call : Expr) (element : Option ValueType)
    (slots : List Slot) : List Expr → InPlace (List Sql)
  | [] => pure []
  | e :: es => do
    let first ← match slots.head?, e with
      | some .selector, .lambda [p] body =>
        if Text.isPlainName p then Sql.lambda [p] <$> under (p, element) (body.lowerInPlace d)
        else step (refuse (.lambda [p] body) .lambdaParameterName)
      | some .selector, .lambda _ _ => step (refuse call .lambdaArity)
      | some .selector, _ => step (refuse call .lambdaExpected)
      | some .index, e => InPlace.shifted call e (e.lowerInPlace d)
      | _, e => e.lowerInPlace d
    let rest ← lowerArgumentsInPlace d call element slots.tail es
    return first :: rest

end

/-! ## Parameters are listed behind the others -/

namespace Lowering

variable {α β : Type}

/-- Where the lowering succeeds, the parameters that were listed stay in front. -/
def Extends (act : Lowering α) : Prop := ∀ ps a qs, act.run ps = .ok (a, qs) → ps <+: qs

theorem Extends.pure (a : α) : Extends (Pure.pure a) := by
  intro ps b qs hrun
  cases run_pure_eq_ok.mp hrun
  exact List.prefix_rfl

theorem Extends.bind {act : Lowering α} {next : α → Lowering β} (hact : Extends act)
    (hnext : ∀ a, Extends (next a)) : Extends (act >>= next) := by
  intro ps b qs hrun
  obtain ⟨a, rs, ha, hb⟩ := run_bind_eq_ok.mp hrun
  exact (hact ps a rs ha).trans (hnext a rs b qs hb)

theorem Extends.refuse (e : Expr) (cause : QueryCause) :
    Extends (Lowering.refuse e cause : Lowering α) :=
  fun _ _ _ hrun => absurd hrun run_refuse_ne_ok

theorem Extends.liftM (act : Outcome α) : Extends (MonadLiftT.monadLift act : Lowering α) := by
  intro ps a qs hrun
  obtain ⟨b, _, heq⟩ := run_liftM_eq_ok.mp hrun
  cases heq
  exact List.prefix_rfl

theorem extends_bind (e : Expr) (name storeType : String) :
    Extends (Lowering.bind e name storeType) := by
  intro ps a qs hrun
  obtain ⟨ps', rs, hget, hrun⟩ := run_bind_eq_ok.mp hrun
  cases hget
  split at hrun
  · split at hrun
    · cases run_pure_eq_ok.mp hrun
      exact List.prefix_rfl
    · exact absurd hrun run_refuse_ne_ok
  · cases hrun
    exact List.prefix_append _ _

theorem extends_parameter (d : TypeDefaults) (e : Expr) (name : String) (type : ValueType) :
    Extends (parameter d e name type) := by
  unfold parameter
  split
  · exact (Extends.liftM _).bind fun _ => (extends_bind _ _ _).bind fun _ => .pure _
  · exact .refuse _ _

theorem extends_boundVar (e : Expr) (bindings : Bindings) (name : String) :
    Extends (boundVar e bindings name) := by
  unfold boundVar
  split
  · exact .pure _
  · exact .refuse _ _

theorem extends_shiftedConstant (e : Expr) (i : Int64) : Extends (shiftedConstant e i) := by
  unfold shiftedConstant
  split
  · exact .pure _
  · exact .refuse _ _

theorem extends_shifted {e index : Expr} {lowered : Lowering Sql} (h : Extends lowered) :
    Extends (shifted e index lowered) := by
  unfold shifted
  split
  · split
    · exact extends_shiftedConstant _ _
    · exact .refuse _ _
  · exact h.bind fun _ => .pure _

theorem extends_against {peer : Option ValueType} {operand : Expr} {lowered : Lowering Sql}
    (h : Extends lowered) : Extends (against peer operand lowered) := by
  have hmember : ∀ e code, Extends (against.member operand e code) := by
    intro e code
    unfold against.member
    split
    · exact .pure _
    · exact .refuse _ _
  unfold against
  split
  · split
    · split
      · exact h
      · exact .refuse _ _
    · exact hmember _ _
    · split
      · exact hmember _ _
      · exact .refuse _ _
    · exact h
  · exact h

theorem extends_receiver (e target : Expr) (bindings : Bindings) :
    Extends (receiver e target bindings) := by
  rintro ps ⟨r, type⟩ qs hrun
  obtain ⟨_, _, rfl⟩ := run_receiver_eq_ok hrun
  exact List.prefix_rfl

theorem extends_fieldArray (e target : Expr) (field : Option String) :
    Extends (fieldArray e target field) := by
  intro ps s qs hrun
  obtain rfl := run_fieldArray_eq_ok hrun
  exact List.prefix_rfl

theorem extends_memberOf (e target : Expr) (m : Member) (t : Sql) :
    Extends (memberOf e target m t) := by
  unfold memberOf
  split
  · exact (extends_fieldArray _ _ _).bind fun _ => .pure _
  all_goals exact .pure _

theorem extends_staticCall (e : Expr) (m : Method) (nullable : Bool) (arguments : List Sql) :
    Extends (staticCall e m nullable arguments) := by
  unfold staticCall
  split
  · split
    · exact .pure _
    · exact .refuse _ _
  · split
    · exact .refuse _ _
    · split
      · exact .pure _
      · exact .refuse _ _

theorem extends_alongPath (e : Expr) (path : List JsonSegment) (base : Sql) :
    Extends (alongPath e base path) := by
  induction path generalizing base with
  | nil => exact .pure base
  | cons segment path ih =>
    cases segment with
    | key name => exact ih _
    | index i => exact (extends_shiftedConstant e i).bind fun _ => ih _

end Lowering

/-! ## Steps that keep the stack -/

namespace InPlace

variable {α β : Type}

theorem exec_bind (act : InPlace α) (next : α → InPlace β) (scope : Scope) :
    (act >>= next).exec scope =
      match act.exec scope with
      | (.ok a, left) => (next a).exec left
      | (.error fault, left) => (.error fault, left) := by
  change StateT.run (ExceptT.bindCont next (act.exec scope).1) (act.exec scope).2 = _
  obtain ⟨answer, left⟩ := act.exec scope
  cases answer <;> rfl

theorem exec_step (lowering : Lowering α) (scope : Scope) :
    (step lowering).exec scope =
      match lowering.run scope.parameters with
      | .ok (a, parameters) => (.ok a, { scope with parameters })
      | .error fault => (.error fault, scope) := rfl

theorem exec_ask (e : Expr) (act : Bindings → Lowering α) (scope : Scope) :
    (ask e act).exec scope = (step (act scope.lambdas)).exec
      { scope with asked := scope.asked ++ [(scope.lambdas, e)] } := rfl

theorem exec_under (binding : String × Option ValueType) (act : InPlace α) (scope : Scope) :
    (under binding act).exec scope =
      let (answer, left) := act.exec { scope with lambdas := binding :: scope.lambdas }
      (answer, { left with lambdas := left.lambdas.tail }) := rfl

/-- On every scope with the bindings on its stack, what is done in place gives what the lowering
gives, and leaves the stack as it was, the parameters behind those that were there, and questions
about none but the expressions within. -/
def Keeps (within : Expr.Scoped → Prop) (bindings : Bindings) (act : InPlace α)
    (lowering : Lowering α) : Prop :=
  ∀ ps asked, ∃ answer qs more,
    act.exec ⟨bindings, ps, asked⟩ = (answer, ⟨bindings, ps ++ qs, asked ++ more⟩) ∧
      lowering.run ps = answer.map (·, ps ++ qs) ∧ ∀ x ∈ more, within x

variable {within : Expr.Scoped → Prop} {bindings : Bindings}

theorem Keeps.imp {act : InPlace α} {lowering : Lowering α} {wider : Expr.Scoped → Prop}
    (h : Keeps within bindings act lowering) (himp : ∀ x, within x → wider x) :
    Keeps wider bindings act lowering := by
  intro ps asked
  obtain ⟨answer, qs, more, hexec, hrun, hmore⟩ := h ps asked
  exact ⟨answer, qs, more, hexec, hrun, fun x hx => himp x (hmore x hx)⟩

theorem Keeps.pure (a : α) : Keeps within bindings (Pure.pure a) (Pure.pure a) := by
  intro ps asked
  exact ⟨.ok a, [], [], by simp; rfl, by simp; rfl, List.forall_mem_nil _⟩

theorem Keeps.bind_of_run {act : InPlace α} {lowering : Lowering α} {next : α → InPlace β}
    {rest : α → Lowering β} (hact : Keeps within bindings act lowering)
    (hnext : ∀ a ps qs, lowering.run ps = .ok (a, qs) →
      Keeps within bindings (next a) (rest a)) :
    Keeps within bindings (act >>= next) (lowering >>= rest) := by
  intro ps asked
  obtain ⟨answer, qs, more, hexec, hrun, hmore⟩ := hact ps asked
  cases answer with
  | error fault =>
    refine ⟨.error fault, qs, more, ?_, ?_, hmore⟩
    · rw [exec_bind, hexec]
    · rw [StateT.run_bind, hrun]
      rfl
  | ok a =>
    obtain ⟨answer', qs', more', hexec', hrun', hmore'⟩ :=
      hnext a ps _ hrun (ps ++ qs) (asked ++ more)
    refine ⟨answer', qs ++ qs', more ++ more', ?_, ?_, ?_⟩
    · rw [exec_bind, hexec]
      dsimp only
      rw [hexec', List.append_assoc, List.append_assoc]
    · rw [StateT.run_bind, hrun, ← List.append_assoc]
      exact hrun'
    · intro x hx
      rcases List.mem_append.mp hx with hx | hx
      · exact hmore x hx
      · exact hmore' x hx

theorem Keeps.bind {act : InPlace α} {lowering : Lowering α} {next : α → InPlace β}
    {rest : α → Lowering β} (hact : Keeps within bindings act lowering)
    (hnext : ∀ a, Keeps within bindings (next a) (rest a)) :
    Keeps within bindings (act >>= next) (lowering >>= rest) :=
  hact.bind_of_run fun a _ _ _ => hnext a

/-- The last step builds the result. -/
theorem Keeps.result {act : InPlace α} {lowering : Lowering α} (f : α → β)
    (h : Keeps within bindings act lowering) :
    Keeps within bindings (act >>= fun a => Pure.pure (f a))
      (lowering >>= fun a => Pure.pure (f a)) :=
  h.bind fun a => .pure (f a)

theorem Keeps.map {act : InPlace α} {lowering : Lowering α} (f : α → β)
    (h : Keeps within bindings act lowering) :
    Keeps within bindings (f <$> act) (f <$> lowering) := by
  rw [← bind_pure_comp, ← bind_pure_comp]
  exact h.bind fun a => .pure (f a)

theorem Keeps.step {lowering : Lowering α} (h : Lowering.Extends lowering) :
    Keeps within bindings (InPlace.step lowering) lowering := by
  intro ps asked
  rw [exec_step]
  cases hrun : lowering.run ps with
  | error fault => exact ⟨.error fault, [], [], by simp, rfl, List.forall_mem_nil _⟩
  | ok result =>
    obtain ⟨a, rs⟩ := result
    obtain ⟨qs, rfl⟩ := h ps a rs hrun
    exact ⟨.ok a, qs, [], by simp, rfl, List.forall_mem_nil _⟩

theorem Keeps.ask {e : Expr} {act : Bindings → Lowering α} (he : within (bindings, e))
    (h : Lowering.Extends (act bindings)) :
    Keeps within bindings (InPlace.ask e act) (act bindings) := by
  intro ps asked
  have hstep : Keeps within bindings (InPlace.step (act bindings)) (act bindings) := .step h
  obtain ⟨answer, qs, more, hexec, hrun, hmore⟩ := hstep ps (asked ++ [(bindings, e)])
  refine ⟨answer, qs, (bindings, e) :: more, ?_, hrun, List.forall_mem_cons.mpr ⟨he, hmore⟩⟩
  rw [exec_ask, hexec, List.append_assoc]
  rfl

/-- A lambda's parameter is gone behind its body. -/
theorem Keeps.under {binding : String × Option ValueType} {act : InPlace α}
    {lowering : Lowering α} (h : Keeps within (binding :: bindings) act lowering) :
    Keeps within bindings (InPlace.under binding act) lowering := by
  intro ps asked
  obtain ⟨answer, qs, more, hexec, hrun, hmore⟩ := h ps asked
  refine ⟨answer, qs, more, ?_, hrun, hmore⟩
  rw [exec_under, hexec]
  rfl

/-- A type is told from the stack as the lowering tells it from the bindings. -/
theorem Keeps.typeOf {e : Expr} (he : within (bindings, e)) :
    Keeps within bindings (InPlace.typeOf e) (Pure.pure (e.type? bindings)) := .ask he (.pure _)

/-- What the lowering has at hand may come out of a step in place. -/
theorem Keeps.value_bind {act : InPlace α} {a : α} {next : α → InPlace β} {lowering : Lowering β}
    (hact : Keeps within bindings act (Pure.pure a))
    (hnext : Keeps within bindings (next a) lowering) :
    Keeps within bindings (act >>= next) lowering := by
  rw [← pure_bind a fun _ => lowering]
  refine hact.bind_of_run fun b ps qs hrun => ?_
  cases Lowering.run_pure_eq_ok.mp hrun
  exact hnext

theorem Keeps.part {e direct : Expr} {act : InPlace α} {lowering : Lowering α}
    (h : Keeps (Expr.IsLexical bindings direct) bindings act lowering) (he : e.isLambda = false)
    (hdirect : direct ∈ e.parts) : Keeps (Expr.IsLexical bindings e) bindings act lowering :=
  h.imp fun _ hx => hx.part he hdirect

theorem keeps_against {d : TypeDefaults} {peer : Option ValueType} {operand : Expr}
    (h : Keeps within bindings (operand.lowerInPlace d) (operand.lower d bindings)) :
    Keeps within bindings (InPlace.against peer operand (operand.lowerInPlace d))
      (Lowering.against peer operand (operand.lower d bindings)) := by
  unfold InPlace.against
  split
  · unfold Expr.lower
    exact .step (extends_against (.pure _))
  · rename_i hconstant
    suffices hsame : Lowering.against peer operand (operand.lower d bindings) =
        operand.lower d bindings by rwa [hsame]
    unfold Lowering.against
    split
    · split
      · exact absurd rfl (hconstant _)
      · exact absurd rfl (hconstant _)
      · exact absurd rfl (hconstant _)
      · rfl
    · rfl

theorem keeps_shifted {d : TypeDefaults} {e index : Expr}
    (h : Keeps within bindings (index.lowerInPlace d) (index.lower d bindings)) :
    Keeps within bindings (InPlace.shifted e index (index.lowerInPlace d))
      (Lowering.shifted e index (index.lower d bindings)) := by
  unfold InPlace.shifted
  split
  · rename_i value hfold
    have hsame : ∀ lowered, Lowering.shifted e index lowered =
        Lowering.shifted e index (refuse index .opaqueConstruct) := by
      intro lowered
      simp only [Lowering.shifted, hfold]
    rw [hsame (index.lower d bindings)]
    exact .step (extends_shifted (.refuse _ _))
  · rename_i hfold
    simp only [Lowering.shifted, hfold]
    exact h.result _

theorem keeps_firstIsNullable (arguments : List Expr) :
    (∀ a ∈ arguments, within (bindings, a)) → Keeps within bindings (firstIsNullable arguments)
      (Pure.pure (match arguments with
        | [] => true
        | first :: _ => ((first.type? bindings).map ValueType.isNullable).getD true)) := by
  intro h
  cases arguments with
  | nil => exact .pure true
  | cons first rest =>
    have hfirst := (Keeps.typeOf (h first List.mem_cons_self)).map
      fun type => (type.map ValueType.isNullable).getD true
    rwa [map_pure] at hfirst

end InPlace

open InPlace (Keeps keeps_against keeps_shifted keeps_firstIsNullable)
open ColumnStore.Expr (IsLexical isLexical_self)

mutual

/-- The lowering in place keeps to what is lexically in scope. -/
theorem Expr.keeps_lowerInPlace (d : TypeDefaults) (bindings : Bindings) : (e : Expr) →
    Keeps (IsLexical bindings e) bindings (e.lowerInPlace d) (e.lower d bindings)
  | .column _ _ _ => by
    unfold Expr.lowerInPlace Expr.lower
    exact .pure _
  | .constant _ => by
    unfold Expr.lowerInPlace Expr.lower
    exact .pure _
  | .parameter name type => by
    unfold Expr.lowerInPlace Expr.lower
    exact .step (extends_parameter _ _ _ _)
  | .var name => by
    unfold Expr.lowerInPlace Expr.lower
    exact .ask (isLexical_self _ _) (extends_boundVar _ _ _)
  | .lambda _ _ => by
    unfold Expr.lowerInPlace Expr.lower
    exact .step (.refuse _ _)
  | .binary op left right => by
    have hleft : left ∈ (Expr.binary op left right).parts := List.mem_cons_self
    have hright : right ∈ (Expr.binary op left right).parts :=
      List.mem_cons_of_mem _ (List.mem_singleton_self _)
    have hl := (left.keeps_lowerInPlace d bindings).part rfl hleft
    have hr := (right.keeps_lowerInPlace d bindings).part rfl hright
    unfold Expr.lowerInPlace Expr.lower
    split
    · exact hl.result _
    · split
      · exact hr.result _
      · refine (Keeps.typeOf ((isLexical_self _ _).part rfl hleft)).value_bind ?_
        refine (Keeps.typeOf ((isLexical_self _ _).part rfl hright)).value_bind ?_
        exact (keeps_against hl).bind fun _ => (keeps_against hr).result _
  | .not operand => by
    have ho := operand.keeps_lowerInPlace d bindings
    unfold Expr.lowerInPlace Expr.lower
    exact (ho.part rfl (List.mem_singleton_self _)).result _
  | .negate operand => by
    have ho := operand.keeps_lowerInPlace d bindings
    unfold Expr.lowerInPlace Expr.lower
    exact (ho.part rfl (List.mem_singleton_self _)).result _
  | .member target name => by
    have htarget : target ∈ (Expr.member target name).parts := List.mem_singleton_self _
    have ht := (target.keeps_lowerInPlace d bindings).part rfl htarget
    unfold Expr.lowerInPlace Expr.lower
    refine (Keeps.ask ((isLexical_self _ _).part rfl htarget) (extends_receiver _ _ _)).bind ?_
    rintro ⟨r, type⟩
    dsimp only
    split
    · exact ht.result _
    · split
      · exact .step (extends_fieldArray _ _ _)
      · cases Member.ofName? r name with
        | none => exact .step (.refuse _ _)
        | some m => exact ht.bind fun _ => .step (extends_memberOf _ _ _ _)
  | .call target method arguments => by
    have htarget : target ∈ (Expr.call target method arguments).parts := List.mem_cons_self
    have ht := (target.keeps_lowerInPlace d bindings).part rfl htarget
    unfold Expr.lowerInPlace Expr.lower
    refine (Keeps.ask ((isLexical_self _ _).part rfl htarget) (extends_receiver _ _ _)).bind_of_run
      ?_
    rintro ⟨r, type⟩ ps qs hreceiver
    obtain ⟨htype, hr, _⟩ := run_receiver_eq_ok hreceiver
    dsimp only
    cases hm : Method.ofName? r method with
    | none => exact .step (.refuse _ _)
    | some m =>
      refine ht.bind fun t => ?_
      cases hsignature : signature? m with
      | none => exact .step (.refuse _ _)
      | some signature =>
        dsimp only
        split
        · exact .step (.refuse _ _)
        · have ha := keeps_lowerArgumentsInPlace d bindings (.call target method arguments)
            type.element? (IsLexical bindings (.call target method arguments))
            signature.slots arguments
            (fun a ha x hx => hx.part rfl (List.mem_cons_of_mem _ ha))
            (fun p body hmem hselector x hx => by
              have htakes := takesLambda_of_selector htype hr hm hsignature hselector
              refine IsLexical.body ?_ htakes hmem
              rwa [htype])
          split
          · exact (Keeps.step (extends_fieldArray _ _ _)).bind fun _ => ha.result _
          · exact (Keeps.pure _).bind fun _ => ha.result _
  | .function cls name arguments => by
    have ha := keeps_lowerAllInPlace d bindings (IsLexical bindings (.function cls name arguments))
      arguments fun a ha x hx => hx.part rfl ha
    unfold Expr.lowerInPlace Expr.lower
    cases (Receiver.ofClass? cls).bind (Method.ofName? · name) with
    | none => exact .step (.refuse _ _)
    | some m =>
      refine ha.bind fun _ => ?_
      refine (keeps_firstIsNullable arguments fun a ha => ?_).value_bind ?_
      · exact (isLexical_self _ _).part rfl ha
      · exact .step (extends_staticCall _ _ _ _)
  | .index target index => by
    have htarget : target ∈ (Expr.index target index).parts := List.mem_cons_self
    have ht := (target.keeps_lowerInPlace d bindings).part rfl htarget
    have hi := (index.keeps_lowerInPlace d bindings).part (e := .index target index) rfl
      (List.mem_cons_of_mem _ (List.mem_singleton_self _))
    unfold Expr.lowerInPlace Expr.lower
    refine (Keeps.ask ((isLexical_self _ _).part rfl htarget) (extends_receiver _ _ _)).bind ?_
    rintro ⟨r, type⟩
    cases r with
    | array | string | json => exact (keeps_shifted hi).bind fun _ => ht.result _
    | map => exact ht.bind fun _ => hi.result _
    | nested | dateTime | math => exact .step (.refuse _ _)
  | .jsonPath target path => by
    have htarget : target ∈ (Expr.jsonPath target path).parts := List.mem_singleton_self _
    have ht := (target.keeps_lowerInPlace d bindings).part rfl htarget
    unfold Expr.lowerInPlace Expr.lower
    refine (Keeps.typeOf ((isLexical_self _ _).part rfl htarget)).value_bind ?_
    split
    · exact ht.bind fun _ => .step (extends_alongPath _ _ _)
    · exact .step (.refuse _ _)
  | .conditional test whenTrue whenFalse => by
    have htest := (test.keeps_lowerInPlace d bindings).part
      (e := .conditional test whenTrue whenFalse) rfl (by simp [Expr.parts])
    have htrue := (whenTrue.keeps_lowerInPlace d bindings).part
      (e := .conditional test whenTrue whenFalse) rfl (by simp [Expr.parts])
    have hfalse := (whenFalse.keeps_lowerInPlace d bindings).part
      (e := .conditional test whenTrue whenFalse) rfl (by simp [Expr.parts])
    unfold Expr.lowerInPlace Expr.lower
    exact htest.bind fun _ => htrue.bind fun _ => hfalse.result _
  | .coalesce left right => by
    have hl := (left.keeps_lowerInPlace d bindings).part (e := .coalesce left right) rfl
      List.mem_cons_self
    have hr := (right.keeps_lowerInPlace d bindings).part (e := .coalesce left right) rfl
      (List.mem_cons_of_mem _ (List.mem_singleton_self _))
    unfold Expr.lowerInPlace Expr.lower
    exact hl.bind fun _ => hr.result _
  | .convert operand type => by
    have ho := operand.keeps_lowerInPlace d bindings
    unfold Expr.lowerInPlace Expr.lower
    exact (ho.part rfl (List.mem_singleton_self _)).bind fun _ =>
      (Keeps.step (Extends.liftM _)).result _
  | .foreign _ => by
    unfold Expr.lowerInPlace Expr.lower
    exact .step (.refuse _ _)

theorem keeps_lowerAllInPlace (d : TypeDefaults) (bindings : Bindings)
    (within : Expr.Scoped → Prop) : (es : List Expr) →
    (∀ e ∈ es, ∀ x, IsLexical bindings e x → within x) →
    Keeps within bindings (lowerAllInPlace d es) (lowerAll d bindings es)
  | [], _ => by
    unfold lowerAllInPlace lowerAll
    exact .pure _
  | e :: es, h => by
    obtain ⟨he, hes⟩ := List.forall_mem_cons.mp h
    have hfirst := (e.keeps_lowerInPlace d bindings).imp he
    have hrest := keeps_lowerAllInPlace d bindings within es hes
    unfold lowerAllInPlace lowerAll
    exact hfirst.bind fun _ => hrest.result _

theorem keeps_lowerArgumentsInPlace (d : TypeDefaults) (bindings : Bindings) (call : Expr)
    (element : Option ValueType) (within : Expr.Scoped → Prop) (slots : List Slot) :
    (es : List Expr) → (∀ e ∈ es, ∀ x, IsLexical bindings e x → within x) →
    (∀ p body, .lambda [p] body ∈ es → .selector ∈ slots →
      ∀ x, IsLexical ((p, element) :: bindings) body x → within x) →
    Keeps within bindings (lowerArgumentsInPlace d call element slots es)
      (lowerArguments d bindings call element slots es)
  | [], _, _ => by
    unfold lowerArgumentsInPlace lowerArguments
    exact .pure _
  | e :: es, hplain, hbody => by
    obtain ⟨he, hes⟩ := List.forall_mem_cons.mp hplain
    have hvalue := (e.keeps_lowerInPlace d bindings).imp he
    have hrest := keeps_lowerArgumentsInPlace d bindings call element within slots.tail es hes
      fun p body hmem hselector =>
        hbody p body (List.mem_cons_of_mem _ hmem) (List.mem_of_mem_tail hselector)
    have hcons := fun s : Sql => hrest.result (s :: ·)
    unfold lowerArgumentsInPlace lowerArguments
    dsimp only
    cases hslot : slots.head? with
    | none => exact hvalue.bind hcons
    | some slot =>
      cases slot with
      | value => exact hvalue.bind hcons
      | index => exact (keeps_shifted hvalue).bind hcons
      | selector =>
        cases e with
        | lambda ps body =>
          rcases ps with _ | ⟨p, _ | ⟨q, ps⟩⟩
          · exact (Keeps.step (.refuse _ _)).bind hcons
          · dsimp only
            split
            · have hinner := (body.keeps_lowerInPlace d ((p, element) :: bindings)).imp
                (hbody p body List.mem_cons_self (List.mem_of_head? hslot))
              exact (hinner.under.map _).bind hcons
            · exact (Keeps.step (.refuse _ _)).bind hcons
          · exact (Keeps.step (.refuse _ _)).bind hcons
        | _ => exact (Keeps.step (.refuse _ _)).bind hcons

end

/-! ## The law -/

namespace Expr

/-- A parameter of a lambda is accepted where its name is bound, on whatever stack it is met. -/
theorem exec_var_eq_ok_iff {d : TypeDefaults} {name : String} {scope : Scope} :
    (∃ s left, ((var name).lowerInPlace d).exec scope = (.ok s, left)) ↔
      (scope.lambdas.lookup name).isSome = true := by
  unfold lowerInPlace
  rw [InPlace.exec_ask, InPlace.exec_step]
  unfold boundVar
  cases (scope.lambdas.lookup name).isSome with
  | true => exact ⟨fun _ => rfl, fun _ => ⟨_, _, rfl⟩⟩
  | false =>
    refine ⟨?_, fun hbound => absurd hbound Bool.false_ne_true⟩
    rintro ⟨s, left, hexec⟩
    cases hexec

/-- Whatever comes of it, a lowering in place leaves the stack of lambda parameters as it was and
lists its parameters behind the others. It gives what the lowering gives and asks the stack only
about what is lexically in scope. A name is accepted just where it is bound, its type is that of the
elements of the innermost collection whose lambda binds it, and that collection stands outside of
the lambda. -/
theorem scoping_is_lexical (d : TypeDefaults) (e : Expr) (scope : Scope) :
    (∃ answer more asked, (e.lowerInPlace d).exec scope =
        (answer, ⟨scope.lambdas, scope.parameters ++ more, scope.asked ++ asked⟩) ∧
      (e.lower d scope.lambdas).run scope.parameters = answer.map (·, scope.parameters ++ more) ∧
      (∀ x ∈ asked, IsLexical scope.lambdas e x) ∧
      ∀ around name s, Stands scope.lambdas e around (var name) → answer = .ok s →
        IsBound scope.lambdas around name) ∧
    ∀ around name, Stands scope.lambdas e around (var name) →
      (∀ inside : Scope, inside.lambdas = scopeUnder scope.lambdas around →
        ((∃ s left, ((var name).lowerInPlace d).exec inside = (.ok s, left)) ↔
          IsBound scope.lambdas around name)) ∧
      (∀ inner l outer, around = inner ++ l :: outer → l.parameter = name →
        (∀ other ∈ inner, other.parameter ≠ name) →
          (var name).type? (scopeUnder scope.lambdas around) =
            (l.collection.type? (scopeUnder scope.lambdas outer)).bind ValueType.element? ∧
          Stands scope.lambdas e outer l.collection) ∧
      (name ∉ around.map Enclosing.parameter →
        (var name).type? (scopeUnder scope.lambdas around) =
          (var name).type? scope.lambdas) := by
  constructor
  · obtain ⟨answer, more, asked, hexec, hrun, hasked⟩ :=
      e.keeps_lowerInPlace d scope.lambdas scope.parameters scope.asked
    refine ⟨answer, more, asked, hexec, hrun, hasked, ?_⟩
    rintro around name s hstands rfl
    by_contra hname
    exact hstands.fails_of_not_isBound hname d _ _ hrun
  · intro around name hstands
    refine ⟨?_, ?_, ?_⟩
    · intro inside hinside
      rw [exec_var_eq_ok_iff, hinside, isSome_lookup_scopeUnder_iff]
    · rintro inner l outer rfl rfl hinner
      exact ⟨type?_var_of_innermost _ outer l hinner, hstands.collection⟩
    · intro hname
      have hother : ∀ l ∈ around, l.parameter ≠ name := fun l hl hl' =>
        hname (List.mem_map.mpr ⟨l, hl, hl'⟩)
      rw [type?, lookup_scopeUnder_of_ne _ hother]
      rfl

/-- Within, `x` is a number of the row that the outer `x` is; outside it stays a text. -/
theorem inner_parameter_ranges_over_outer :
    let rows := Expr.column none "Rows" (.array (.array .int64))
    let positive := Expr.binary .gt (.var "x") (.constant (.int 0))
    let e := Expr.call rows "Any" [.lambda ["x"] (.call (.var "x") "All" [.lambda ["x"] positive])]
    let stray := Expr.call rows "Any" [.lambda ["x"] (.var "y")]
    let scope : Scope := ⟨[("x", some .string)], [], []⟩
    let around : List Enclosing := [⟨"x", .var "x"⟩, ⟨"x", rows⟩]
    Stands scope.lambdas e around (.var "x") ∧
      (Expr.var "x").type? (scopeUnder scope.lambdas around) = some .int64 ∧
      (∃ s left, (e.lowerInPlace {}).exec scope = (.ok s, left) ∧
        left.lambdas = [("x", some .string)]) ∧
      ∃ fault left, (stray.lowerInPlace {}).exec scope = (.error fault, left) ∧
        left.lambdas = [("x", some .string)] := by
  intro rows positive e stray scope around
  have hinner : Stands [("x", some (.array .int64)), ("x", some .string)]
      (.call (.var "x") "All" [.lambda ["x"] positive]) [⟨"x", .var "x"⟩] (.var "x") :=
    .body ⟨rfl, by decide⟩ List.mem_cons_self (.part rfl List.mem_cons_self .here)
  have htakes : TakesLambda scope.lambdas rows "Any" := ⟨rfl, by decide⟩
  have hstands : Stands scope.lambdas e around (.var "x") :=
    .body htakes List.mem_cons_self hinner
  obtain ⟨⟨answer, _, _, hexec, hrun, _⟩, hplace⟩ := scoping_is_lexical {} e scope
  obtain ⟨⟨refusal, _, _, hexec', hrun', _⟩, _⟩ := scoping_is_lexical {} stray scope
  obtain ⟨htype, _⟩ := (hplace around "x" hstands).2.1 [] _ _ rfl rfl (List.forall_mem_nil _)
  have hok : ∃ r, (e.lower {} scope.lambdas).run [] = .ok r := ⟨_, rfl⟩
  have herror : ∃ fault, (stray.lower {} scope.lambdas).run [] = .error fault := ⟨_, rfl⟩
  obtain ⟨r, hok⟩ := hok
  obtain ⟨fault, herror⟩ := herror
  refine ⟨hstands, htype, ?_, ?_⟩
  · cases answer with
    | ok s => exact ⟨s, _, hexec, rfl⟩
    | error => cases hok.symm.trans hrun
  · cases refusal with
    | ok => cases herror.symm.trans hrun'
    | error fault => exact ⟨fault, _, hexec', rfl⟩

end Expr

end ColumnStore
