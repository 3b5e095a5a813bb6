-- The parameters of a prepared query: each name once, with the column type of
-- its mentions, and none but the mentioned ones. Lowering lists a parameter
-- where it lowers a mention of it, so the law says that no part of an
-- expression with a mention in it is left out.
import ColumnStore.Proofs.Query.Success
import ColumnStore.Query.Select
import Mathlib.Data.List.Nodup

namespace ColumnStore

/-! ## Mentions -/

/-- A parameter where an expression mentions it, with the type that it has there. -/
structure Mention where
  name : String
  type : ValueType

namespace Expr

mutual

/-- Every mention of a parameter anywhere in the expression. -/
def mentions : Expr → List Mention
  | column _ _ _ => []
  | constant _ => []
  | parameter name type => [⟨name, type⟩]
  | var _ => []
  | lambda _ body => body.mentions
  | binary _ left right => left.mentions ++ right.mentions
  | not operand => operand.mentions
  | negate operand => operand.mentions
  | member target _ => target.mentions
  | call target _ arguments => target.mentions ++ mentionsAll arguments
  | function _ _ arguments => mentionsAll arguments
  | index target position => target.mentions ++ position.mentions
  | jsonPath target _ => target.mentions
  | conditional test whenTrue whenFalse =>
    test.mentions ++ (whenTrue.mentions ++ whenFalse.mentions)
  | coalesce left right => left.mentions ++ right.mentions
  | convert operand _ => operand.mentions
  | foreign _ => []

def mentionsAll : List Expr → List Mention
  | [] => []
  | e :: es => e.mentions ++ mentionsAll es

end

/-- What folds to a constant mentions nothing. -/
theorem mentions_of_fold? {e : Expr} {value : Value} (h : e.fold? = some value) :
    e.mentions = [] := by
  refine of_fold? (motive := fun e => e.mentions = []) (fun _ => ?_) (fun _ h => ?_)
    (fun _ _ _ hl hr => ?_) h
  · rw [mentions]
  · rw [mentions, h]
  · rw [mentions, hl, hr, List.append_nil]

theorem mentions_of_isNullConstant {e : Expr} (h : e.isNullConstant = true) : e.mentions = [] := by
  unfold isNullConstant at h
  split at h
  · rfl
  · cases h

end Expr

/-- Every mention of a parameter in the parts of a query that are lowered. -/
def Select.mentions (q : Select) : List Mention :=
  q.projections.flatMap (·.1.mentions) ++ (q.filters.flatMap Expr.mentions ++
    (q.groupBy.flatMap Expr.mentions ++ (q.having.toList.flatMap Expr.mentions ++
      (q.orderBy.flatMap (·.1.mentions) ++ (q.limit.toList.flatMap Expr.mentions ++
        q.offset.toList.flatMap Expr.mentions)))))

/-! ## Records of mentions -/

/-- The parameters are the mentioned ones: each name once, and each mention with the column type
of its type. -/
structure Records (d : TypeDefaults) (mentions : List Mention) (ps : List BoundParameter) :
    Prop where
  distinct : (ps.map (·.name)).Nodup
  mentioned : ∀ p ∈ ps, ∃ x ∈ mentions, x.name = p.name ∧ d.resolve {} x.type = .ok p.storeType
  complete : ∀ x ∈ mentions, ∃ p ∈ ps, p.name = x.name ∧ d.resolve {} x.type = .ok p.storeType

/-- One name is mentioned with two column types. -/
def Clash (d : TypeDefaults) (mentions : List Mention) : Prop :=
  ∃ x ∈ mentions, ∃ y ∈ mentions, x.name = y.name ∧
    ∃ s t, d.resolve {} x.type = .ok s ∧ d.resolve {} y.type = .ok t ∧ s ≠ t

variable {d : TypeDefaults}

theorem Records.nil : Records d [] [] := ⟨List.nodup_nil, by simp, by simp⟩

theorem Records.of_mem_iff {xs ys : List Mention} {ps : List BoundParameter}
    (h : Records d xs ps) (hmem : ∀ x, x ∈ ys ↔ x ∈ xs) : Records d ys ps := by
  obtain ⟨hdistinct, hmentioned, hcomplete⟩ := h
  refine ⟨hdistinct, ?_, fun x hx => hcomplete x ((hmem x).mp hx)⟩
  intro p hp
  obtain ⟨x, hx, hname⟩ := hmentioned p hp
  exact ⟨x, (hmem x).mpr hx, hname⟩

theorem Records.not_clash {xs : List Mention} {ps : List BoundParameter} (h : Records d xs ps) :
    ¬ Clash d xs := by
  rintro ⟨x, hx, y, hy, hname, s, t, hs, ht, hne⟩
  obtain ⟨p, hp, hpname, hptype⟩ := h.complete x hx
  obtain ⟨q, hq, hqname, hqtype⟩ := h.complete y hy
  have hpq : p = q := List.inj_on_of_nodup_map h.distinct hp hq (by rw [hpname, hqname, hname])
  rw [hs] at hptype
  rw [ht] at hqtype
  subst hpq
  exact hne ((Except.ok.inj hptype).trans (Except.ok.inj hqtype).symm)

/-! ## Lowerings that list what they meet -/

namespace Lowering

variable {α β : Type}

/-- Where the lowering succeeds, it adds the mentions to those that the parameters record. -/
def Collects (d : TypeDefaults) (act : Lowering α) (mentions : List Mention) : Prop :=
  ∀ seen ps a qs, Records d seen ps → act.run ps = .ok (a, qs) → Records d (seen ++ mentions) qs

theorem Collects.pure (a : α) : Collects d (Pure.pure a) [] := by
  intro seen ps b qs h hrun
  cases run_pure_eq_ok.mp hrun
  rwa [List.append_nil]

theorem Collects.bind {act : Lowering α} {next : α → Lowering β} {xs ys : List Mention}
    (hact : Collects d act xs) (hnext : ∀ a, Collects d (next a) ys) :
    Collects d (act >>= next) (xs ++ ys) := by
  intro seen ps b qs h hrun
  obtain ⟨a, rs, ha, hb⟩ := run_bind_eq_ok.mp hrun
  rw [← List.append_assoc]
  exact hnext a _ rs b qs (hact seen ps a rs h ha) hb

theorem Collects.of_mem_iff {act : Lowering α} {xs ys : List Mention} (h : Collects d act xs)
    (hmem : ∀ x, x ∈ ys ↔ x ∈ xs) : Collects d act ys := by
  intro seen ps a qs hseen hrun
  refine (h seen ps a qs hseen hrun).of_mem_iff ?_
  intro x
  rw [List.mem_append, List.mem_append, hmem]

/-- The last step of a lowering builds its result and mentions nothing more. -/
theorem Collects.result {act : Lowering α} {xs : List Mention} (h : Collects d act xs)
    (f : α → β) : Collects d (act >>= fun a => Pure.pure (f a)) xs := by
  have hbind := h.bind fun a => Collects.pure (d := d) (f a)
  rwa [List.append_nil] at hbind

/-- A step that mentions nothing may stand in front. -/
theorem Collects.after {act : Lowering α} {next : α → Lowering β} {xs : List Mention}
    (hact : Collects d act []) (hnext : ∀ a, Collects d (next a) xs) :
    Collects d (act >>= next) xs := hact.bind hnext

theorem Collects.refuse (e : Expr) (cause : QueryCause) (xs : List Mention) :
    Collects d (Lowering.refuse e cause : Lowering α) xs := by
  intro seen ps a qs _ hrun
  exact absurd hrun run_refuse_ne_ok

theorem Collects.liftM (act : Outcome α) : Collects d (MonadLiftT.monadLift act : Lowering α) [] := by
  intro seen ps a qs h hrun
  obtain ⟨b, _, heq⟩ := run_liftM_eq_ok.mp hrun
  cases heq
  rwa [List.append_nil]

theorem Collects.mapM {f : α → Lowering β} {mentions : α → List Mention}
    (h : ∀ a, Collects d (f a) (mentions a)) (l : List α) :
    Collects d (l.mapM f) (l.flatMap mentions) := by
  induction l with
  | nil => exact Collects.pure []
  | cons a l ih =>
    rw [List.mapM_cons, List.flatMap_cons]
    exact (h a).bind fun b => ih.result fun bs => b :: bs

/-! ## Each rule of the lowering -/

/-- A parameter is listed unless it is there with the same type. -/
theorem run_bind_records {e : Expr} {name storeType : String} {type : ValueType}
    {seen : List Mention} {ps qs : List BoundParameter} (hseen : Records d seen ps)
    (htype : d.resolve {} type = .ok storeType)
    (hrun : (Lowering.bind e name storeType).run ps = .ok ((), qs)) :
    Records d (seen ++ [⟨name, type⟩]) qs := by
  obtain ⟨hdistinct, hmentioned, hcomplete⟩ := hseen
  have hfrom : ∀ p ∈ ps, ∃ x ∈ seen ++ [⟨name, type⟩], x.name = p.name ∧
      d.resolve {} x.type = .ok p.storeType := by
    intro p hp
    obtain ⟨x, hx, hname⟩ := hmentioned p hp
    exact ⟨x, List.mem_append_left _ hx, hname⟩
  obtain ⟨ps', rs, hget, hrun⟩ := run_bind_eq_ok.mp hrun
  cases hget
  cases hfind : ps.find? (·.name = name) with
  | some known =>
    rw [hfind] at hrun
    have hknown : known ∈ ps := List.mem_of_find?_eq_some hfind
    have hname : known.name = name := by simpa using List.find?_some hfind
    by_cases hsame : known.storeType = storeType
    · simp only [hsame, if_true] at hrun
      cases run_pure_eq_ok.mp hrun
      refine ⟨hdistinct, hfrom, ?_⟩
      intro x hx
      rcases List.mem_append.mp hx with hx | hx
      · exact hcomplete x hx
      · cases List.mem_singleton.mp hx
        exact ⟨known, hknown, hname, hsame ▸ htype⟩
    · simp only [hsame, if_false] at hrun
      exact absurd hrun run_refuse_ne_ok
  | none =>
    rw [hfind] at hrun
    have hqs : qs = ps ++ [⟨name, storeType⟩] := by
      cases hrun
      rfl
    subst hqs
    have hnew : name ∉ ps.map (·.name) := by
      intro hmem
      obtain ⟨p, hp, hname⟩ := List.mem_map.mp hmem
      have := List.find?_eq_none.mp hfind p hp
      simp [hname] at this
    refine ⟨?_, ?_, ?_⟩
    · rw [List.map_append, List.nodup_append]
      refine ⟨hdistinct, List.nodup_singleton _, ?_⟩
      intro a ha b hb
      obtain rfl : b = name := by simpa using hb
      rintro rfl
      exact hnew ha
    · intro p hp
      rcases List.mem_append.mp hp with hp | hp
      · exact hfrom p hp
      · cases List.mem_singleton.mp hp
        exact ⟨⟨name, type⟩, by simp, rfl, htype⟩
    · intro x hx
      rcases List.mem_append.mp hx with hx | hx
      · obtain ⟨p, hp, hname⟩ := hcomplete x hx
        exact ⟨p, List.mem_append_left _ hp, hname⟩
      · cases List.mem_singleton.mp hx
        exact ⟨⟨name, storeType⟩, by simp, rfl, htype⟩

theorem collects_parameter (e : Expr) (name : String) (type : ValueType) :
    Collects d (parameter d e name type) [⟨name, type⟩] := by
  unfold parameter
  split
  · intro seen ps a qs hseen hrun
    obtain ⟨storeType, rs, hresolve, hrun⟩ := run_bind_eq_ok.mp hrun
    obtain ⟨_, htype, heq⟩ := run_liftM_eq_ok.mp hresolve
    cases heq
    obtain ⟨_, ts, hbind, hrun⟩ := run_bind_eq_ok.mp hrun
    cases run_pure_eq_ok.mp hrun
    exact run_bind_records hseen htype hbind
  · exact Collects.refuse _ _ _

theorem collects_boundVar (e : Expr) (bindings : Bindings) (name : String) :
    Collects d (boundVar e bindings name) [] := by
  unfold boundVar
  split
  · exact Collects.pure _
  · exact Collects.refuse _ _ _

theorem collects_shiftedConstant (e : Expr) (i : Int64) :
    Collects d (shiftedConstant e i) [] := by
  unfold shiftedConstant
  split
  · exact Collects.pure _
  · exact Collects.refuse _ _ _

/-- An index that folds is not lowered, and mentions nothing. -/
theorem collects_shifted {e index : Expr} {lowered : Lowering Sql}
    (h : Collects d lowered index.mentions) :
    Collects d (shifted e index lowered) index.mentions := by
  unfold shifted
  split
  · rename_i value hfold
    rw [Expr.mentions_of_fold? hfold]
    split
    · exact collects_shiftedConstant e _
    · exact Collects.refuse _ _ _
  · exact h.result _

/-- A code in place of which a name is written is a constant, and mentions nothing. -/
theorem collects_against {peer : Option ValueType} {operand : Expr} {lowered : Lowering Sql}
    (h : Collects d lowered operand.mentions) :
    Collects d (against peer operand lowered) operand.mentions := by
  have hmember : ∀ e code, Collects d (against.member operand e code) [] := by
    intro e code
    unfold against.member
    split
    · exact Collects.pure _
    · exact Collects.refuse _ _ _
  unfold against
  split
  · split
    · split
      · exact h
      · exact Collects.refuse _ _ _
    · simpa only [Expr.mentions] using hmember _ _
    · split
      · simpa only [Expr.mentions] using hmember _ _
      · exact Collects.refuse _ _ _
    · exact h
  · exact h

theorem collects_receiver (e target : Expr) (bindings : Bindings) :
    Collects d (receiver e target bindings) [] := by
  unfold receiver
  split
  · exact Collects.refuse _ _ _
  · split
    · exact Collects.refuse _ _ _
    · exact Collects.pure _

/-- A field is read off a column, which mentions nothing. -/
theorem collects_fieldArray (e target : Expr) (field : Option String) :
    Collects d (fieldArray e target field) target.mentions := by
  unfold fieldArray
  split
  · rw [Expr.mentions]
    split
    · split
      · exact Collects.pure _
      · exact Collects.refuse _ _ _
    · exact Collects.refuse _ _ _
  · exact Collects.refuse _ _ _

theorem collects_alongPath (e : Expr) (path : List JsonSegment) (base : Sql) :
    Collects d (alongPath e base path) [] := by
  induction path generalizing base with
  | nil => exact Collects.pure base
  | cons segment path ih =>
    cases segment with
    | key name => exact ih _
    | index i => exact (collects_shiftedConstant e i).after fun _ => ih _

theorem collects_staticCall (e : Expr) (m : Method) (nullable : Bool) (arguments : List Sql) :
    Collects d (staticCall e m nullable arguments) [] := by
  unfold staticCall
  split
  · split
    · exact Collects.pure _
    · exact Collects.refuse _ _ _
  · split
    · exact Collects.refuse _ _ _
    · split
      · exact Collects.pure _
      · exact Collects.refuse _ _ _

/-- Lowering a receiver twice mentions what lowering it once mentions. -/
theorem Collects.twice {act : Lowering α} {next : α → Lowering β} {xs : List Mention}
    (hact : Collects d act xs) (hnext : ∀ a, Collects d (next a) xs) :
    Collects d (act >>= next) xs := by
  refine (hact.bind hnext).of_mem_iff ?_
  intro x
  rw [List.mem_append, or_self]

theorem collects_memberOf {e target : Expr} {lowered : Lowering Sql} (m : Member)
    (h : Collects d lowered target.mentions) :
    Collects d (lowered >>= memberOf e target m) target.mentions := by
  cases m with
  | nestedCount => exact h.twice fun _ => (collects_fieldArray e target none).result _
  | datePart part => cases part <;> exact h.result _
  | _ => exact h.result _

end Lowering

open Lowering

mutual

/-- Lowering an expression lists every parameter that it mentions. -/
theorem Expr.collects_lower (d : TypeDefaults) (bindings : Bindings) :
    (e : Expr) → Collects d (e.lower d bindings) e.mentions
  | .column _ _ _ => by
    unfold Expr.lower Expr.mentions
    exact Collects.pure _
  | .constant _ => by
    unfold Expr.lower Expr.mentions
    exact Collects.pure _
  | .parameter name type => by
    unfold Expr.lower Expr.mentions
    exact collects_parameter _ name type
  | .var name => by
    unfold Expr.lower Expr.mentions
    exact collects_boundVar _ bindings name
  | .lambda _ _ => by
    unfold Expr.lower
    exact Collects.refuse _ _ _
  | .binary op left right => by
    have hl := left.collects_lower d bindings
    have hr := right.collects_lower d bindings
    unfold Expr.lower Expr.mentions
    split
    · rename_i hnull
      rw [Expr.mentions_of_isNullConstant (Bool.and_eq_true_iff.mp hnull).2, List.append_nil]
      exact hl.result _
    · split
      · rename_i hnull
        rw [Expr.mentions_of_isNullConstant (Bool.and_eq_true_iff.mp hnull).2, List.nil_append]
        exact hr.result _
      · exact (collects_against hl).bind fun _ => (collects_against hr).result _
  | .not operand => by
    unfold Expr.lower Expr.mentions
    exact (operand.collects_lower d bindings).result _
  | .negate operand => by
    unfold Expr.lower Expr.mentions
    exact (operand.collects_lower d bindings).result _
  | .member target name => by
    have ht := target.collects_lower d bindings
    unfold Expr.lower Expr.mentions
    refine (collects_receiver _ target bindings).after fun (r, type) => ?_
    dsimp only
    split
    · exact ht.result _
    · split
      · exact collects_fieldArray _ target _
      · split
        · exact Collects.refuse _ _ _
        · exact collects_memberOf _ ht
  | .call target method arguments => by
    have ht := target.collects_lower d bindings
    have harguments := fun e element slots =>
      collects_lowerArguments d bindings e element slots arguments
    unfold Expr.lower Expr.mentions
    refine (collects_receiver _ target bindings).after fun (r, type) => ?_
    dsimp only
    split
    · exact Collects.refuse _ _ _
    · split
      · exact ht.bind fun _ => Collects.refuse _ _ _
      · split
        · exact ht.bind fun _ => Collects.refuse _ _ _
        · split
          · refine (ht.bind fun _ => (collects_fieldArray _ target none).bind fun _ =>
              (harguments _ _ _).result _).of_mem_iff ?_
            intro x
            simp only [List.mem_append]
            rw [← or_assoc, or_self]
          · exact ht.bind fun t => (Collects.pure t).after fun _ => (harguments _ _ _).result _
  | .function cls name arguments => by
    unfold Expr.lower Expr.mentions
    dsimp only
    split
    · exact Collects.refuse _ _ _
    · have h := fun e m nullable => (collects_lowerAll d bindings arguments).bind fun lowered =>
        collects_staticCall e m nullable lowered
      simp only [List.append_nil] at h
      exact h _ _ _
  | .index target index => by
    have ht := target.collects_lower d bindings
    have hi := index.collects_lower d bindings
    unfold Expr.lower Expr.mentions
    refine (collects_receiver _ target bindings).after fun (r, type) => ?_
    dsimp only
    split
    iterate 3
      · refine ((collects_shifted hi).bind fun _ => ht.result _).of_mem_iff ?_
        intro x
        rw [List.mem_append, List.mem_append, or_comm]
    · exact ht.bind fun _ => hi.result _
    · exact Collects.refuse _ _ _
  | .jsonPath target path => by
    unfold Expr.lower Expr.mentions
    split
    · have h := (target.collects_lower d bindings).bind fun base =>
        collects_alongPath (d := d) (.jsonPath target path) path base
      rwa [List.append_nil] at h
    · exact Collects.refuse _ _ _
  | .conditional test whenTrue whenFalse => by
    unfold Expr.lower Expr.mentions
    exact (test.collects_lower d bindings).bind fun _ =>
      (whenTrue.collects_lower d bindings).bind fun _ =>
        (whenFalse.collects_lower d bindings).result _
  | .coalesce left right => by
    unfold Expr.lower Expr.mentions
    exact (left.collects_lower d bindings).bind fun _ => (right.collects_lower d bindings).result _
  | .convert operand type => by
    unfold Expr.lower Expr.mentions
    have h := (operand.collects_lower d bindings).bind fun s =>
      (Collects.liftM (d := d) (d.resolve {} type)).result fun typeName => Sql.cast s typeName
    rwa [List.append_nil] at h
  | .foreign _ => by
    unfold Expr.lower
    exact Collects.refuse _ _ _

theorem collects_lowerAll (d : TypeDefaults) (bindings : Bindings) :
    (es : List Expr) → Collects d (lowerAll d bindings es) (Expr.mentionsAll es)
  | [] => by
    unfold lowerAll Expr.mentionsAll
    exact Collects.pure _
  | e :: es => by
    unfold lowerAll Expr.mentionsAll
    exact (e.collects_lower d bindings).bind fun _ => (collects_lowerAll d bindings es).result _

theorem collects_lowerArguments (d : TypeDefaults) (bindings : Bindings) (call : Expr)
    (element : Option ValueType) (slots : List Slot) :
    (es : List Expr) →
      Collects d (lowerArguments d bindings call element slots es) (Expr.mentionsAll es)
  | [] => by
    unfold lowerArguments Expr.mentionsAll
    exact Collects.pure _
  | e :: es => by
    have hrest := collects_lowerArguments d bindings call element slots.tail es
    have he := e.collects_lower d bindings
    have hbody : ∀ ps body, e = .lambda ps body → ∀ inner,
        Collects d (body.lower d inner) body.mentions :=
      fun _ body _ inner => body.collects_lower d inner
    unfold lowerArguments Expr.mentionsAll
    dsimp only
    split
    · split
      · rename_i p body _ _
        have h := (hbody [p] body rfl ((p, element) :: bindings)).result (Sql.lambda [p])
        rw [bind_pure_comp] at h
        rw [Expr.mentions]
        exact h.bind fun _ => hrest.result _
      · exact (Collects.refuse _ _ _).bind fun _ => hrest.result _
    · exact (Collects.refuse _ _ _).bind fun _ => hrest.result _
    · exact (Collects.refuse _ _ _).bind fun _ => hrest.result _
    · exact (collects_shifted he).bind fun _ => hrest.result _
    · exact he.bind fun _ => hrest.result _

end

/-! ## Queries -/

namespace Select

theorem collects_lowerText (d : TypeDefaults) (e : Expr) :
    Collects d (lowerText d e) e.mentions := (e.collects_lower d []).result _

theorem collects_projectionText (d : TypeDefaults) (p : Expr × Option String) :
    Collects d (projectionText d p) p.1.mentions := (collects_lowerText d p.1).result _

theorem collects_orderText (d : TypeDefaults) (o : Expr × Bool) :
    Collects d (orderText d o) o.1.mentions := (collects_lowerText d o.1).result _

theorem mentions_conjunction (filters : List Expr) :
    (Expr.conjunction filters).toList.flatMap Expr.mentions = filters.flatMap Expr.mentions := by
  cases filters with
  | nil => rfl
  | cons e es =>
    rw [Expr.conjunction, Option.toList_some, List.flatMap_singleton, List.flatMap_cons]
    induction es generalizing e with
    | nil => rw [List.foldl_nil, List.flatMap_nil, List.append_nil]
    | cons e' es ih =>
      rw [List.foldl_cons, ih, Expr.mentions, List.flatMap_cons, List.append_assoc]

theorem collects_body (q : Select) (d : TypeDefaults) (source : String) (settings : List String) :
    Collects d (q.body d source settings) q.mentions := by
  unfold body mentions
  rw [← mentions_conjunction]
  refine (Collects.mapM (collects_projectionText d) _).bind fun _ => ?_
  refine (Collects.mapM (collects_lowerText d) _).bind fun _ => ?_
  refine (Collects.mapM (collects_lowerText d) _).bind fun _ => ?_
  refine (Collects.mapM (collects_lowerText d) _).bind fun _ => ?_
  refine (Collects.mapM (collects_orderText d) _).bind fun _ => ?_
  refine (Collects.mapM (collects_lowerText d) _).bind fun _ => ?_
  exact (Collects.mapM (collects_lowerText d) _).result _

theorem exists_run_body {q : Select} {t : QueryContext} {prepared : PreparedQuery}
    (h : q.prepare t = .ok prepared) :
    ∃ source settings,
      (q.body t.types source settings).run [] = .ok (prepared.sql, prepared.parameters) := by
  unfold prepare at h
  obtain ⟨_, _, h⟩ := Outcome.bind_eq_ok.mp h
  obtain ⟨_, _, h⟩ := Outcome.bind_eq_ok.mp h
  obtain ⟨settings, _, h⟩ := Outcome.bind_eq_ok.mp h
  obtain ⟨⟨sql, ps⟩, hrun, h⟩ := Outcome.bind_eq_ok.mp h
  cases h
  exact ⟨_, settings, hrun⟩

end Select

/-! ## The laws -/

/-- The parameters of an accepted expression or query are those that it mentions, each name once
and each mention with the column type of its type; a name that is mentioned with two column types
is refused. -/
theorem prepared_parameters_are_the_mentioned_ones (t : QueryContext) :
    (∀ e prepared, Expr.prepare t.types e = .ok prepared →
      Records t.types e.mentions prepared.parameters) ∧
    (∀ e, Clash t.types e.mentions → ∃ fault, Expr.prepare t.types e = .error fault) ∧
    (∀ q prepared, Select.prepare q t = .ok prepared →
      Records t.types q.mentions prepared.parameters) ∧
    ∀ q, Clash t.types q.mentions → ∃ fault, Select.prepare q t = .error fault := by
  have hexpr : ∀ e prepared, Expr.prepare t.types e = .ok prepared →
      Records t.types e.mentions prepared.parameters := by
    intro e prepared h
    obtain ⟨⟨sql, ps⟩, hrun, h⟩ := Outcome.bind_eq_ok.mp h
    cases h
    exact e.collects_lower t.types [] [] [] sql ps Records.nil hrun
  have hselect : ∀ q prepared, Select.prepare q t = .ok prepared →
      Records t.types q.mentions prepared.parameters := by
    intro q prepared h
    obtain ⟨source, settings, hrun⟩ := Select.exists_run_body h
    exact q.collects_body t.types source settings [] [] _ _ Records.nil hrun
  refine ⟨hexpr, ?_, hselect, ?_⟩
  · intro e hclash
    cases h : Expr.prepare t.types e with
    | error fault => exact ⟨fault, rfl⟩
    | ok prepared => exact absurd hclash (hexpr e prepared h).not_clash
  · intro q hclash
    cases h : Select.prepare q t with
    | error fault => exact ⟨fault, rfl⟩
    | ok prepared => exact absurd hclash (hselect q prepared h).not_clash

/-- A name stands once in the list, however often it is mentioned, within a lambda and without. -/
theorem repeated_parameters_are_listed_once :
    let tag := Expr.parameter "tag" .string
    let least := Expr.parameter "least" .int32
    let e := Expr.binary .and
      (.call (.column none "Tags" (.array .string)) "Any"
        [.lambda ["t"] (.binary .eq (.var "t") tag)])
      (.binary .gt (.column none "Id" .int32) (.binary .add least least))
    let ps := [BoundParameter.mk "tag" "String", BoundParameter.mk "least" "Int32"]
    let q : Select := { table := "T", filters := [e], limit := some least }
    (∃ sql, Expr.prepare {} e = .ok ⟨sql, ps⟩) ∧ Records {} e.mentions ps ∧
      (∃ sql, Select.prepare q {} = .ok ⟨sql, ps⟩) ∧ Records {} q.mentions ps := by
  intro tag least e ps q
  have he : ∃ sql, Expr.prepare {} e = .ok ⟨sql, ps⟩ := ⟨_, by rfl⟩
  have hq : ∃ sql, Select.prepare q {} = .ok ⟨sql, ps⟩ := ⟨_, by rfl⟩
  obtain ⟨hexpr, _, hselect, _⟩ := prepared_parameters_are_the_mentioned_ones {}
  exact ⟨he, he.elim fun _ h => hexpr e _ h, hq, hq.elim fun _ h => hselect q _ h⟩

end ColumnStore
