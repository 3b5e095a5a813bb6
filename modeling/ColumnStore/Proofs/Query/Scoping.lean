-- What a name in the SQL text stands for. Columns and the parameters of lambdas
-- are told apart in an expression, but share one kind of name in its text, and
-- there a lambda hides every column of its parameter's name.
import ColumnStore.Proofs.Query.Success
import ColumnStore.Proofs.Text.Quoted

namespace ColumnStore

open ColumnStore.Text

/-- Something in a tree, below lambdas with these parameters, the innermost first. -/
structure Placed (α : Type) where
  scope : List String
  item : α
  deriving DecidableEq

/-! ## Names in the text -/

/-- What a name stands for: a column, or the parameter at a place of the scope. -/
inductive Referent where
  | column
  | parameter (place : Nat)
  deriving DecidableEq, Repr

namespace Sql

mutual

/-- The names of the tree where they stand. -/
def names (scope : List String) : Sql → List (Placed Sql)
  | identifier text => [⟨scope, identifier text⟩]
  | raw _ => []
  | var name => [⟨scope, var name⟩]
  | function _ arguments => namesAll scope arguments
  | binary left _ right => left.names scope ++ right.names scope
  | not operand => operand.names scope
  | negate operand => operand.names scope
  | isNull operand _ => operand.names scope
  | subcolumn base _ => base.names scope
  | subscript target index => target.names scope ++ index.names scope
  | lambda parameters body => body.names (parameters ++ scope)
  | cast operand _ => operand.names scope

def namesAll (scope : List String) : List Sql → List (Placed Sql)
  | [] => []
  | s :: ss => s.names scope ++ namesAll scope ss

end

theorem namesAll_append (scope : List String) (ss ss' : List Sql) :
    namesAll scope (ss ++ ss') = namesAll scope ss ++ namesAll scope ss' := by
  induction ss with
  | nil => rfl
  | cons s ss ih => rw [List.cons_append, namesAll, namesAll, ih, List.append_assoc]

/-- The name without a table in front of it, in quotes or not. -/
def unqualified? : Sql → Option String
  | var name => some name
  | identifier text =>
    match readQuotedName text.toList with
    | some (name, []) => some name
    | _ => none
  | _ => none

/-- An unqualified name stands for the parameter of the innermost lambda that binds it, any other
name for a column. -/
def resolve (scope : List String) (name : Sql) : Referent :=
  match name.unqualified?.bind scope.idxOf? with
  | some place => .parameter place
  | none => .column

theorem resolve_eq_column_iff {scope : List String} {name : Sql} :
    name.resolve scope = .column ↔ ∀ n, name.unqualified? = some n → n ∉ scope := by
  unfold resolve
  cases name.unqualified? with
  | none => simp
  | some n =>
    rw [Option.bind_some]
    constructor
    · rintro h _ ⟨⟩ hn
      obtain ⟨place, hplace⟩ := Option.isSome_iff_exists.mp (List.isSome_idxOf?.mpr hn)
      rw [hplace] at h
      cases h
    · intro h
      rw [List.idxOf?_eq_none_iff.mpr (h n rfl)]

theorem unqualified?_identifier (table : Option String) (name : String) :
    (identifier (qualifiedName table name)).unqualified? =
      if table.getD "" = "" then some name else none := by
  have hbare : (identifier (quoteName name)).unqualified? = some name := by
    have hread := readQuotedName_quoteName name (show ([] : List Char).head? ≠ some '"' from nofun)
    rw [List.append_nil] at hread
    rw [unqualified?, hread]
  unfold qualifiedName
  cases table with
  | none => exact hbare
  | some t =>
    dsimp only
    split
    · rename_i hempty
      rw [hbare, if_pos (by simpa using hempty)]
    · rename_i hempty
      rw [if_neg (by simpa using hempty), unqualified?, String.toList_append,
        String.toList_append, List.append_assoc, readQuotedName_quoteName t (by simp)]
      rfl

end Sql

/-! ## Names in an expression -/

/-- What an expression refers to by its name. -/
inductive Reference where
  | column (table : Option String) (name : String)
  /-- One field of a record's column. -/
  | field (table : Option String) (record name : String)
  | var (name : String)
  deriving DecidableEq, Repr

namespace Reference

/-- The reference as it is written. -/
def sql : Reference → Sql
  | column table name => .identifier (qualifiedName table name)
  | field table record name => .identifier (qualifiedName table (record ++ "." ++ name))
  | var name => .var name

def isColumn : Reference → Bool
  | var _ => false
  | _ => true

end Reference

namespace Expr

/-- The field that is read where a record's column is asked for a field, by default the first. -/
def field? (target : Expr) (field : Option String) : Option Reference :=
  match target with
  | .column table name type =>
    match type.underlying with
    | .nested _ fields => (field.or (fields.head?.map (·.1))).map (.field table name)
    | _ => none
  | _ => none

/-- The name of a member where it is a field of the column's record. -/
def fieldName? (target : Expr) (name : String) : Option String :=
  match target with
  | .column _ _ type => if Lowering.hasField type name then some name else none
  | _ => none

mutual

/-- The references of the expression where they stand. -/
def names (scope : List String) : Expr → List (Placed Reference)
  | column table name _ => [⟨scope, .column table name⟩]
  | constant _ => []
  | parameter _ _ => []
  | var name => [⟨scope, .var name⟩]
  | lambda parameters body => body.names (parameters ++ scope)
  | binary _ left right => left.names scope ++ right.names scope
  | not operand => operand.names scope
  | negate operand => operand.names scope
  | member target name =>
    (target.field? (target.fieldName? name)).elim (target.names scope) fun r => [⟨scope, r⟩]
  | call target _ arguments =>
    ((target.field? none).elim (target.names scope) fun r => [⟨scope, r⟩]) ++
      namesAll scope arguments
  | function _ _ arguments => namesAll scope arguments
  | index target position => target.names scope ++ position.names scope
  | jsonPath target _ => target.names scope
  | conditional test whenTrue whenFalse =>
    test.names scope ++ (whenTrue.names scope ++ whenFalse.names scope)
  | coalesce left right => left.names scope ++ right.names scope
  | convert operand _ => operand.names scope
  | foreign _ => []

def namesAll (scope : List String) : List Expr → List (Placed Reference)
  | [] => []
  | e :: es => e.names scope ++ namesAll scope es

end

theorem names_of_isNullConstant {e : Expr} (h : e.isNullConstant = true) (scope : List String) :
    e.names scope = [] := by
  unfold isNullConstant at h
  split at h
  · rw [names]
  · cases h

/-- What folds to a constant refers to nothing. -/
theorem names_of_fold? {e : Expr} {value : Value} (h : e.fold? = some value)
    (scope : List String) : e.names scope = [] := by
  refine of_fold? (motive := fun e => e.names scope = []) (fun _ => ?_) (fun _ h => ?_)
    (fun _ _ _ hl hr => ?_) h
  · rw [names]
  · rw [names, h]
  · rw [names, hl, hr, List.append_nil]

end Expr

/-- The names of the lambda parameters in scope. -/
def Bindings.scope (bindings : Bindings) : List String := bindings.map (·.1)

/-! ## What a rule keeps -/

namespace Placed

/-- The name as it stands in the lowered tree. -/
def written (x : Placed Reference) : Placed Sql := ⟨x.scope, x.item.sql⟩

/-- A name below lambdas with plain parameters, one of which it is where it is a parameter. -/
structure Bound (x : Placed Reference) : Prop where
  plain : ∀ p ∈ x.scope, isPlainName p = true
  bound : ∀ n, x.item = .var n → n ∈ x.scope

end Placed

namespace Lowering

/-- The names of an expression are those of what it is lowered to. -/
structure Traces (names : List (Placed Reference)) (lowered : List (Placed Sql)) : Prop where
  mem_iff : ∀ x, x ∈ lowered ↔ x ∈ names.map Placed.written
  bound : ∀ x ∈ names, x.Bound

variable {names names' : List (Placed Reference)} {lowered lowered' : List (Placed Sql)}

theorem Traces.nil : Traces [] [] := ⟨by simp, nofun⟩

theorem Traces.append (h : Traces names lowered) (h' : Traces names' lowered') :
    Traces (names ++ names') (lowered ++ lowered') := by
  constructor
  · intro x
    rw [List.map_append, List.mem_append, List.mem_append, h.mem_iff, h'.mem_iff]
  · exact List.forall_mem_append.mpr ⟨h.bound, h'.bound⟩

/-- How often a name is written, and in which order, does not matter. -/
theorem Traces.of_mem_iff (h : Traces names lowered) (hiff : ∀ x, x ∈ lowered' ↔ x ∈ lowered) :
    Traces names lowered' :=
  ⟨fun x => (hiff x).trans (h.mem_iff x), h.bound⟩

theorem Traces.call {scope : List String} {t : Sql} (h : Traces names (t.names scope))
    (function : String) : Traces names ((Sql.function function [t]).names scope) := by
  rwa [Sql.names, Sql.namesAll, Sql.namesAll, List.append_nil]

/-- The lowering gives a tree with the names. -/
def Follows (scope : List String) (names : List (Placed Reference)) (act : Lowering Sql) : Prop :=
  Gives act fun s => Traces names (s.names scope)

variable {scope : List String} {act : Lowering Sql}

theorem traces_raw (scope : List String) (text : String) :
    Traces [] ((Sql.raw text).names scope) := by
  rw [Sql.names]
  exact .nil

theorem traces_reference {r : Reference} (hscope : ∀ p ∈ scope, isPlainName p = true)
    (hvar : ∀ n, r = .var n → n ∈ scope) : Traces [⟨scope, r⟩] (r.sql.names scope) := by
  refine ⟨fun x => ?_, fun x hx => ?_⟩
  · cases r <;> simp [Reference.sql, Sql.names, Placed.written]
  · cases List.mem_singleton.mp hx
    exact ⟨hscope, hvar⟩

theorem follows_parameter (d : TypeDefaults) (e : Expr) (name : String) (type : ValueType) :
    Follows scope [] (parameter d e name type) :=
  Gives.parameter fun _ _ _ => traces_raw scope _

theorem follows_boundVar (e : Expr) {bindings : Bindings}
    (hscope : ∀ p ∈ bindings.scope, isPlainName p = true) (name : String) :
    Follows bindings.scope [⟨bindings.scope, .var name⟩] (boundVar e bindings name) := by
  unfold boundVar
  split
  · rename_i hbound
    refine .pure (traces_reference (r := .var name) hscope ?_)
    rintro _ ⟨⟩
    obtain ⟨type, hlookup⟩ := Option.isSome_iff_exists.mp hbound
    obtain ⟨inner, outer, rfl, _⟩ := List.lookup_eq_some_iff.mp hlookup
    simp [Bindings.scope]
  · exact Gives.refuse _ _

theorem follows_shiftedConstant (e : Expr) (i : Int64) :
    Follows scope [] (shiftedConstant e i) :=
  Gives.shiftedConstant e i fun _ => traces_raw scope _

/-- An index that folds is not lowered, and any other one is written three times. -/
theorem follows_shifted {e index : Expr} (h : Follows scope (index.names scope) act) :
    Follows scope (index.names scope) (shifted e index act) := by
  refine Gives.shifted e h (fun value hfold n => ?_) fun i hi => hi.of_mem_iff fun x => ?_
  · rw [Expr.names_of_fold? hfold]
    exact traces_raw scope _
  · simp [Sql.names, Sql.namesAll]

/-- A code in place of which a name is written is a constant, and refers to nothing. -/
theorem follows_against {peer : Option ValueType} {operand : Expr}
    (h : Follows scope (operand.names scope) act) :
    Follows scope (operand.names scope) (against peer operand act) := by
  refine Gives.against h ?_
  rintro value rfl name
  rw [Expr.names]
  exact traces_raw scope _

theorem names_combine (op : Operator) (leftType rightType : Option ValueType) (l r : Sql) :
    (combine op leftType rightType l r).names scope = l.names scope ++ r.names scope := by
  unfold combine
  dsimp only
  split
  · simp [Sql.names, Sql.namesAll]
  · split <;> simp [Sql.names, Sql.namesAll]

theorem gives_receiver (e target : Expr) (bindings : Bindings) :
    Gives (receiver e target bindings) fun (r, type) =>
      target.type? bindings = some type ∧ Receiver.ofType? type = some r := by
  unfold receiver
  split
  · exact Gives.refuse _ _
  · rename_i htype
    split
    · exact Gives.refuse _ _
    · rename_i hreceiver
      exact .pure ⟨htype, hreceiver⟩

/-- In place of a record's column one of its fields is read. -/
theorem follows_fieldArray {e target : Expr} {field : Option String}
    (hscope : ∀ p ∈ scope, isPlainName p = true) :
    Follows scope ((target.field? field).elim names fun r => [⟨scope, r⟩])
      (fieldArray e target field) := by
  unfold fieldArray
  split
  · rename_i table name type
    split
    · rename_i fields hnested
      split
      · rename_i first hfirst
        have hfield : (Expr.column table name type).field? field =
            some (.field table name first) := by
          simp [Expr.field?, hnested, hfirst]
        rw [hfield]
        refine .pure (traces_reference (r := .field table name first) hscope ?_)
        rintro n ⟨⟩
      · exact Gives.refuse _ _
    · exact Gives.refuse _ _
  · exact Gives.refuse _ _

section

variable {target : Expr} {bindings : Bindings} {type : ValueType}

theorem field?_fieldName? (htype : target.type? bindings = some type) (name : String) :
    target.field? (target.fieldName? name) =
      target.field? (if hasField type name then some name else none) := by
  cases target with
  | column table column type' =>
    rw [Expr.type?] at htype
    cases htype
    rfl
  | _ => rfl

/-- Only records have fields. -/
theorem field?_eq_none {receiver : Receiver} (htype : target.type? bindings = some type)
    (hreceiver : Receiver.ofType? type = some receiver) (hne : receiver ≠ .nested)
    (field : Option String) : target.field? field = none := by
  unfold Expr.field?
  split
  · rw [Expr.type?] at htype
    cases htype
    split
    · rename_i hnested
      rw [Receiver.ofType?, hnested] at hreceiver
      exact absurd (Option.some.inj hreceiver).symm hne
    · rfl
  · rfl

end

theorem onField_of_nested {name : String} {m : Method} {s : Signature}
    (hm : Method.ofName? .nested name = some m) (hs : signature? m = some s) :
    s.onField = true := by
  unfold Method.ofName? at hm
  dsimp only at hm
  split at hm <;> cases hm <;> cases hs <;> rfl

theorem eq_nestedCount_of_nested {name : String} {m : Member}
    (hm : Member.ofName? .nested name = some m) : m = .nestedCount := by
  unfold Member.ofName? at hm
  dsimp only at hm
  split at hm <;> cases hm
  rfl

theorem follows_memberOf {e target : Expr} {m : Member} (hm : m ≠ .nestedCount) {t : Sql}
    (h : Traces names (t.names scope)) : Follows scope names (memberOf e target m t) := by
  cases m with
  | nestedCount => exact absurd rfl hm
  | mapCount => exact .pure ((h.call "mapKeys").call "length")
  | datePart part =>
    cases part with
    | dayOfWeek =>
      have hday := (h.call "toDayOfWeek").append .nil
      rw [List.append_nil] at hday
      refine .pure (hday.of_mem_iff fun x => ?_)
      simp [Sql.names]
    | _ => exact .pure (h.call _)
  | _ => exact .pure (h.call _)

/-- A method's SQL holds its receiver and its arguments. -/
theorem mem_names_build {m : Method} {s : Signature} (h : signature? m = some s) (t : Sql)
    {arguments : List Sql} (harguments : s.slots = [] → arguments = []) (x : Placed Sql) :
    x ∈ (s.build t arguments).names scope ↔
      x ∈ t.names scope ++ Sql.namesAll scope arguments := by
  have hselecting : ∀ required function bare, (∀ t : Sql, (bare t).names scope = t.names scope) →
      (x ∈ ((Signature.selecting required function bare).build t arguments).names scope ↔
        x ∈ t.names scope ++ Sql.namesAll scope arguments) := by
    intro required function bare hbare
    cases arguments with
    | nil => simp [Signature.selecting, hbare, Sql.namesAll]
    | cons a as =>
      simp [Signature.selecting, Sql.names, Sql.namesAll_append, Sql.namesAll, or_comm,
        or_left_comm]
  cases m
  case arrayAny | arrayAll | arrayFirst | arrayLast | arrayCount | arrayWhere | arraySelect
      | arraySum | arrayMin | arrayMax =>
    cases h
    exact hselecting _ _ _ fun t => by simp [Sql.names, Sql.namesAll]
  case mapCount | nestedAny | nestedCount =>
    cases h
    simp [harguments rfl, Sql.names, Sql.namesAll]
  case stringIsNullOrEmpty | mathAbs | mathRound | mathFloor | mathCeiling | mathMax | mathMin =>
    cases h
  all_goals
    cases h
    simp [Signature.plain, Sql.names, Sql.namesAll]

theorem follows_staticCall {e : Expr} {m : Method} {nullable : Bool} {arguments : List Sql}
    (h : Traces names (Sql.namesAll scope arguments)) :
    Follows scope names (staticCall e m nullable arguments) := by
  unfold staticCall
  split
  · split
    · refine .pure (h.of_mem_iff fun x => ?_)
      cases nullable <;> simp [Sql.names, Sql.namesAll]
    · exact Gives.refuse _ _
  · split
    · exact Gives.refuse _ _
    · split
      · exact .pure (by rwa [Sql.names])
      · exact Gives.refuse _ _

theorem names_indexed (r : Receiver) (target index : Sql) :
    (indexed r target index).names scope = target.names scope ++ index.names scope := by
  unfold indexed
  split <;> simp [Sql.names, Sql.namesAll]

theorem follows_alongPath (e : Expr) (path : List JsonSegment) {base : Sql}
    (h : Traces names (base.names scope)) : Follows scope names (alongPath e base path) := by
  induction path generalizing base with
  | nil => exact .pure h
  | cons segment path ih =>
    cases segment with
    | key name => exact ih (by rwa [Sql.names])
    | index i =>
      have hindex : Follows scope [] (shiftedConstant e i) := follows_shiftedConstant e i
      refine hindex.bind fun s hs => ih ?_
      have hboth := h.append hs
      rwa [List.append_nil] at hboth

end Lowering

open Lowering

mutual

/-- The names of an accepted expression are those of its tree, under the same lambdas. -/
theorem Expr.follows_lower (d : TypeDefaults) (bindings : Bindings)
    (hscope : ∀ p ∈ bindings.scope, isPlainName p = true) : (e : Expr) →
    Follows bindings.scope (e.names bindings.scope) (e.lower d bindings)
  | .column table name _ => by
    unfold Expr.lower Expr.names
    exact .pure (traces_reference (r := .column table name) hscope nofun)
  | .constant value => by
    unfold Expr.lower Expr.names
    exact .pure (traces_raw _ _)
  | .parameter name type => by
    unfold Expr.lower Expr.names
    exact follows_parameter d _ name type
  | .var name => by
    unfold Expr.lower Expr.names
    exact follows_boundVar _ hscope name
  | .lambda _ _ => by
    unfold Expr.lower
    exact Gives.refuse _ _
  | .binary op left right => by
    have hl := left.follows_lower d bindings hscope
    have hr := right.follows_lower d bindings hscope
    unfold Expr.lower Expr.names
    split
    · rename_i hnull
      rw [Expr.names_of_isNullConstant (Bool.and_eq_true_iff.mp hnull).2, List.append_nil]
      exact hl.result fun _ hs => by rwa [Sql.names]
    · split
      · rename_i hnull
        rw [Expr.names_of_isNullConstant (Bool.and_eq_true_iff.mp hnull).2, List.nil_append]
        exact hr.result fun _ hs => by rwa [Sql.names]
      · exact (follows_against hl).bind fun _ hl => (follows_against hr).result fun _ hr => by
          rw [names_combine]
          exact hl.append hr
  | .not operand => by
    unfold Expr.lower Expr.names
    exact (operand.follows_lower d bindings hscope).result fun _ hs => by rwa [Sql.names]
  | .negate operand => by
    unfold Expr.lower Expr.names
    exact (operand.follows_lower d bindings hscope).result fun _ hs => by rwa [Sql.names]
  | .member target name => by
    have ht := target.follows_lower d bindings hscope
    unfold Expr.lower Expr.names
    refine (gives_receiver _ target bindings).bind fun (r, type) ⟨htype, hreceiver⟩ => ?_
    -- Only a record's column gives way to one of its fields, which is named or, for `Count`, first.
    have hnone := field?_eq_none htype hreceiver
    rw [field?_fieldName? htype]
    dsimp only
    split
    · rename_i hjson
      rw [hnone (by rw [hjson]; nofun)]
      exact ht.result fun _ hs => by rwa [Sql.names]
    · split
      · exact follows_fieldArray hscope
      · split
        · exact Gives.refuse _ _
        · rename_i m hm
          by_cases hcount : m = .nestedCount
          · subst hcount
            exact Gives.after fun _ => (follows_fieldArray hscope).result fun _ hs => hs.call _
          · have hne : r ≠ .nested := by
              rintro rfl
              exact hcount (eq_nestedCount_of_nested hm)
            rw [hnone hne]
            exact ht.bind fun _ hs => follows_memberOf hcount hs
  | .call target method arguments => by
    have ht := target.follows_lower d bindings hscope
    have ha := fun e element slots =>
      follows_lowerArguments d bindings hscope e element slots arguments
    unfold Expr.lower Expr.names
    refine (gives_receiver _ target bindings).bind fun (r, type) ⟨htype, hreceiver⟩ => ?_
    have hnone := field?_eq_none htype hreceiver
    dsimp only
    split
    · exact Gives.refuse _ _
    · rename_i m hm
      split
      · exact Gives.after fun _ => Gives.refuse _ _
      · rename_i signature hsignature
        split
        · exact Gives.after fun _ => Gives.refuse _ _
        · rename_i harity
          -- A method that leaves its arguments out has no slot for one.
          have hbuild : ∀ {names t ss}, Traces names (Sql.names bindings.scope t) →
              (arguments = [] → ss = []) ∧ Traces (Expr.namesAll bindings.scope arguments)
                (Sql.namesAll bindings.scope ss) →
              Traces (names ++ Expr.namesAll bindings.scope arguments)
                ((signature.build t ss).names bindings.scope) := by
            intro names t ss ht ⟨hempty, hss⟩
            refine (ht.append hss).of_mem_iff (mem_names_build hsignature t fun hslots => hempty ?_)
            rw [Bool.or_eq_true, not_or, decide_eq_true_eq, decide_eq_true_eq, hslots] at harity
            exact List.length_eq_zero_iff.mp (Nat.eq_zero_of_not_pos harity.2)
          refine ht.bind fun t ht => ?_
          split
          · exact (follows_fieldArray hscope).bind fun _ hs => (ha _ _ _).result fun _ hargs =>
              hbuild hs hargs
          · rename_i hreceived
            have hne : r ≠ .nested := by
              rintro rfl
              exact hreceived (onField_of_nested hm hsignature)
            rw [hnone hne]
            exact (ha _ _ _).result fun _ hargs => hbuild ht hargs
  | .function cls name arguments => by
    have ha := follows_lowerAll d bindings hscope arguments
    unfold Expr.lower Expr.names
    dsimp only
    split
    · exact Gives.refuse _ _
    · exact ha.bind fun _ hargs => follows_staticCall hargs
  | .index target index => by
    have ht := target.follows_lower d bindings hscope
    have hi := index.follows_lower d bindings hscope
    unfold Expr.lower Expr.names
    refine Gives.after fun (r, type) => ?_
    dsimp only
    split
    iterate 3
      exact (follows_shifted hi).bind fun _ hi => ht.result fun _ ht => by
        rw [names_indexed]
        exact ht.append hi
    · exact ht.bind fun _ ht => hi.result fun _ hi => by
        rw [names_indexed]
        exact ht.append hi
    · exact Gives.refuse _ _
  | .jsonPath target path => by
    have ht := target.follows_lower d bindings hscope
    unfold Expr.lower Expr.names
    split
    · exact ht.bind fun _ ht => follows_alongPath _ path ht
    · exact Gives.refuse _ _
  | .conditional test whenTrue whenFalse => by
    have htest := test.follows_lower d bindings hscope
    have htrue := whenTrue.follows_lower d bindings hscope
    have hfalse := whenFalse.follows_lower d bindings hscope
    unfold Expr.lower Expr.names
    exact htest.bind fun _ h1 => htrue.bind fun _ h2 => hfalse.result fun _ h3 => by
      simpa [Sql.names, Sql.namesAll] using h1.append (h2.append h3)
  | .coalesce left right => by
    have hl := left.follows_lower d bindings hscope
    have hr := right.follows_lower d bindings hscope
    unfold Expr.lower Expr.names
    exact hl.bind fun _ hl => hr.result fun _ hr => by
      simpa [Sql.names, Sql.namesAll] using hl.append hr
  | .convert operand type => by
    have hoperand := operand.follows_lower d bindings hscope
    unfold Expr.lower Expr.names
    exact hoperand.bind fun _ hs => Gives.after fun _ => .pure (by rwa [Sql.names])
  | .foreign _ => by
    unfold Expr.lower
    exact Gives.refuse _ _

theorem follows_lowerAll (d : TypeDefaults) (bindings : Bindings)
    (hscope : ∀ p ∈ bindings.scope, isPlainName p = true) : (es : List Expr) →
    Gives (lowerAll d bindings es) fun ss =>
      Traces (Expr.namesAll bindings.scope es) (Sql.namesAll bindings.scope ss)
  | [] => by
    unfold lowerAll Expr.namesAll
    exact .pure .nil
  | e :: es => by
    have he := e.follows_lower d bindings hscope
    have hes := follows_lowerAll d bindings hscope es
    unfold lowerAll Expr.namesAll
    exact he.bind fun _ hs => hes.result fun _ hss => hs.append hss

theorem follows_lowerArguments (d : TypeDefaults) (bindings : Bindings)
    (hscope : ∀ p ∈ bindings.scope, isPlainName p = true) (call : Expr)
    (element : Option ValueType) (slots : List Slot) : (es : List Expr) →
    Gives (lowerArguments d bindings call element slots es) fun ss =>
      (es = [] → ss = []) ∧
        Traces (Expr.namesAll bindings.scope es) (Sql.namesAll bindings.scope ss)
  | [] => by
    unfold lowerArguments Expr.namesAll
    exact .pure ⟨fun _ => rfl, .nil⟩
  | e :: es => by
    have hrest := follows_lowerArguments d bindings hscope call element slots.tail es
    have he := e.follows_lower d bindings hscope
    -- Both sides enter the lambda, so its parameter is the first name of both scopes.
    have hbody : ∀ p body, e = .lambda [p] body → isPlainName p = true →
        Follows bindings.scope (e.names bindings.scope)
          (Sql.lambda [p] <$> body.lower d ((p, element) :: bindings)) := by
      rintro p body rfl hp
      have hinner := body.follows_lower d ((p, element) :: bindings)
        (List.forall_mem_cons.mpr ⟨hp, hscope⟩)
      exact hinner.map fun _ hs => by
        rw [Sql.names, Expr.names]
        exact hs
    have hcons : ∀ {s : Sql}, Traces (e.names bindings.scope) (s.names bindings.scope) → Gives
        (lowerArguments d bindings call element slots.tail es >>= fun rest => pure (s :: rest))
        fun ss => (e :: es = [] → ss = []) ∧
          Traces (Expr.namesAll bindings.scope (e :: es)) (Sql.namesAll bindings.scope ss) := by
      intro s hs
      refine hrest.result fun ss hss => ⟨nofun, ?_⟩
      rw [Expr.namesAll, Sql.namesAll]
      exact hs.append hss.2
    unfold lowerArguments
    dsimp only
    split
    · split
      · rename_i p body _ hp
        exact (hbody p body rfl hp).bind fun _ => hcons
      · exact (Gives.refuse _ _).bind fun _ => hcons
    · exact (Gives.refuse _ _).bind fun _ => hcons
    · exact (Gives.refuse _ _).bind fun _ => hcons
    · exact (follows_shifted he).bind fun _ => hcons
    · exact he.bind fun _ => hcons

end

/-! ## The law -/

/-- A column in quotes stands for a parameter just where it is unqualified and has its name. -/
theorem Reference.resolve_column_iff {scope : List String} (table : Option String)
    (name : String) : (column table name).sql.resolve scope = .column ↔
      (table.getD "" = "" → name ∉ scope) := by
  rw [Sql.resolve_eq_column_iff, sql, Sql.unqualified?_identifier]
  by_cases h : table.getD "" = "" <;> simp [h]

/-- The dot before a field's name is in the name of no parameter. -/
theorem Reference.resolve_field {scope : List String}
    (hscope : ∀ p ∈ scope, isPlainName p = true) (table : Option String) (record name : String) :
    (field table record name).sql.resolve scope = .column := by
  rw [Sql.resolve_eq_column_iff, sql, Sql.unqualified?_identifier]
  rintro n hn hmem
  split at hn
  · cases hn
    have hdot := isNameChar_of_isPlainName (hscope _ hmem) '.' (by simp)
    revert hdot
    decide
  · cases hn

/-- A parameter stands for that of the innermost lambda that binds its name. -/
theorem Sql.resolve_var {scope : List String} {name : String} (h : name ∈ scope) :
    ∃ place, scope.idxOf? name = some place ∧ (var name).resolve scope = .parameter place := by
  obtain ⟨place, hplace⟩ := Option.isSome_iff_exists.mp (List.isSome_idxOf?.mpr h)
  refine ⟨place, hplace, ?_⟩
  rw [resolve, unqualified?, Option.bind_some, hplace]

/-- In the tree of an accepted expression stand the expression's own names, below the same
lambdas. Every parameter there is that of the innermost lambda that binds it, and every column is
a column exactly when no unqualified one has the name of an enclosing lambda's parameter. -/
theorem Expr.columns_stay_columns_iff {d : TypeDefaults} {e : Expr} {prepared : PreparedQuery}
    (h : e.prepare d = .ok prepared) :
    ∃ s, (e.lower d []).run [] = .ok (s, prepared.parameters) ∧ prepared.sql = s.render ∧
      (∀ x, x ∈ s.names [] ↔ x ∈ (e.names []).map Placed.written) ∧
      (∀ scope name, ⟨scope, .var name⟩ ∈ e.names [] →
        ∃ place, scope.idxOf? name = some place ∧
          (Sql.var name).resolve scope = .parameter place) ∧
      ((∀ x ∈ e.names [], x.item.isColumn = true → x.item.sql.resolve x.scope = .column) ↔
        ∀ scope table name, ⟨scope, .column table name⟩ ∈ e.names [] → table.getD "" = "" →
          name ∉ scope) := by
  obtain ⟨⟨s, ps⟩, hrun, hprepared⟩ := Outcome.bind_eq_ok.mp h
  cases hprepared
  obtain ⟨hnames, hbound⟩ := e.follows_lower d [] nofun [] s ps hrun
  refine ⟨s, hrun, rfl, hnames, ?_, ?_, ?_⟩
  · intro scope name hmem
    exact Sql.resolve_var ((hbound _ hmem).bound name rfl)
  · intro hcolumns scope table name hmem
    exact (Reference.resolve_column_iff table name).mp (hcolumns _ hmem rfl)
  · rintro hfree ⟨scope, r⟩ hmem hcolumn
    cases r with
    | column table name => exact (Reference.resolve_column_iff table name).mpr (hfree _ _ _ hmem)
    | field table record name => exact Reference.resolve_field (hbound _ hmem).plain table record name
    | var name => cases hcolumn

/-- Where two lambdas bind one name, it is the inner one's, and the columns beside it are columns. -/
theorem Expr.inner_parameter_hides_outer :
    let inner := Expr.lambda ["x"] (.binary .eq (.var "x") (.column none "Name" .string))
    let e := Expr.call (.column none "Rows" (.array (.array .string))) "Where"
      [.lambda ["x"] (.call (.var "x") "Any" [inner])]
    let sql := "arrayFilter(x -> arrayExists(x -> x = \"Name\", x), \"Rows\")"
    Expr.prepare {} e = .ok ⟨sql, []⟩ ∧
      ∃ s, (e.lower {} []).run [] = .ok (s, []) ∧ sql = s.render ∧
        (∃ place, ["x", "x"].idxOf? "x" = some place ∧
          (Sql.var "x").resolve ["x", "x"] = .parameter place) ∧
        ∀ x ∈ e.names [], x.item.isColumn = true → x.item.sql.resolve x.scope = .column := by
  intro inner e sql
  let tree := Sql.function "arrayFilter" [.lambda ["x"] (.function "arrayExists"
    [.lambda ["x"] (.binary (.var "x") "=" (.identifier (quoteName "Name"))), .var "x"]),
    .identifier (quoteName "Rows")]
  have hsql : tree.render = sql := by decide +kernel
  have hprepare : Expr.prepare {} e = .ok ⟨sql, []⟩ := by
    rw [← hsql]
    rfl
  have hnames : e.names [] = [⟨[], .column none "Rows"⟩, ⟨["x"], .var "x"⟩,
      ⟨["x", "x"], .var "x"⟩, ⟨["x", "x"], .column none "Name"⟩] := by decide
  obtain ⟨s, hrun, hrender, _, hvar, hcolumns⟩ := columns_stay_columns_iff hprepare
  rw [hnames] at hvar hcolumns
  refine ⟨hprepare, s, hrun, hrender, hvar _ _ (by simp), ?_⟩
  rw [hnames]
  refine hcolumns.mpr fun scope table name hmem _ => ?_
  simp only [List.mem_cons, List.not_mem_nil, Placed.mk.injEq, reduceCtorEq, and_false, false_or,
    Reference.column.injEq, or_false] at hmem
  obtain ⟨rfl, _, rfl⟩ | ⟨rfl, _, rfl⟩ := hmem
  · exact List.not_mem_nil
  · decide

/-- A column named like the parameter of a lambda around it is taken for the parameter. -/
theorem Expr.column_is_taken_for_parameter :
    let e := Expr.call (.column none "Tags" (.array .string)) "Any"
      [.lambda ["t"] (.binary .eq (.var "t") (.column none "t" .string))]
    Expr.prepare {} e = .ok ⟨"arrayExists(t -> t = \"t\", \"Tags\")", []⟩ ∧
      ⟨["t"], .column none "t"⟩ ∈ e.names [] ∧
      ∃ s, (e.lower {} []).run [] = .ok (s, []) ∧
        ⟨["t"], .identifier "\"t\""⟩ ∈ s.names [] ∧
        (Sql.identifier "\"t\"").resolve ["t"] = .parameter 0 := by
  intro e
  let s := Sql.function "arrayExists"
    [.lambda ["t"] (.binary (.var "t") "=" (.identifier (quoteName "t"))),
      .identifier (quoteName "Tags")]
  have hsql : s.render = "arrayExists(t -> t = \"t\", \"Tags\")" := by decide +kernel
  refine ⟨?_, by decide, s, rfl, ?_, by decide⟩
  · rw [← hsql]
    rfl
  · have hquoted : quoteName "t" = "\"t\"" := by decide
    simp [s, Sql.names, Sql.namesAll, hquoted]

end ColumnStore
