-- What a lowering that succeeds has gone through. Each law takes a successful
-- run apart into the runs of its parts.
import ColumnStore.Proofs.Outcome
import ColumnStore.Query.Lowering

namespace ColumnStore

/-- What holds of constants, and passes to negations and arithmetic, holds of all that folds. -/
theorem Expr.of_fold? {motive : Expr → Prop} (hconstant : ∀ v, motive (.constant v))
    (hnegate : ∀ operand, motive operand → motive (.negate operand))
    (hbinary : ∀ op left right, motive left → motive right → motive (.binary op left right))
    {e : Expr} {value : Value} (h : e.fold? = some value) : motive e := by
  fun_induction Expr.fold? e generalizing value with
  | case1 v => exact hconstant v
  | case2 operand ih =>
    obtain ⟨v, hv, _⟩ := Option.bind_eq_some_iff.mp h
    exact hnegate operand (ih hv)
  | case3 op left right ihl ihr =>
    obtain ⟨l, hl, h⟩ := Option.bind_eq_some_iff.mp h
    obtain ⟨r, hr, _⟩ := Option.bind_eq_some_iff.mp h
    exact hbinary op left right (ihl hl) (ihr hr)
  | case4 => cases h

namespace Lowering

variable {α β : Type} {ps : List BoundParameter}

theorem run_bind_eq_ok {act : Lowering α} {next : α → Lowering β} {r : β × List BoundParameter} :
    (act >>= next).run ps = .ok r ↔
      ∃ a qs, act.run ps = .ok (a, qs) ∧ (next a).run qs = .ok r := by
  rw [StateT.run_bind, Outcome.bind_eq_ok, Prod.exists]

theorem run_pure_eq_ok {a : α} {r : α × List BoundParameter} :
    (pure a : Lowering α).run ps = .ok r ↔ r = (a, ps) := by
  rw [StateT.run_pure]
  constructor
  · intro h
    exact (Except.ok.inj h).symm
  · rintro rfl
    rfl

theorem run_map_eq_ok {act : Lowering α} {f : α → β} {r : β × List BoundParameter} :
    (f <$> act).run ps = .ok r ↔ ∃ a qs, act.run ps = .ok (a, qs) ∧ r = (f a, qs) := by
  rw [← bind_pure_comp, run_bind_eq_ok]
  simp only [run_pure_eq_ok]

theorem run_liftM_eq_ok {act : Outcome α} {r : α × List BoundParameter} :
    (liftM act : Lowering α).run ps = .ok r ↔ ∃ a, act = .ok a ∧ r = (a, ps) := by
  cases act with
  | error fault =>
    constructor
    · intro h
      cases h
    · rintro ⟨a, h, _⟩
      cases h
  | ok a =>
    constructor
    · intro h
      exact ⟨a, rfl, (Except.ok.inj h).symm⟩
    · rintro ⟨b, h, rfl⟩
      cases h
      rfl

theorem run_refuse_ne_ok {e : Expr} {cause : QueryCause} {r : α × List BoundParameter} :
    (refuse e cause : Lowering α).run ps ≠ .ok r := by
  intro h
  cases h

/-! ## What a lowering gives -/

/-- Whatever the lowering gives has the property. -/
def Gives (act : Lowering α) (property : α → Prop) : Prop :=
  ∀ ps a qs, act.run ps = .ok (a, qs) → property a

variable {act : Lowering α} {property : α → Prop} {wanted : β → Prop}

theorem Gives.pure {a : α} (h : property a) : Gives (Pure.pure a) property := by
  intro ps b qs hrun
  cases run_pure_eq_ok.mp hrun
  exact h

theorem Gives.bind {next : α → Lowering β} (hact : Gives act property)
    (hnext : ∀ a, property a → Gives (next a) wanted) : Gives (act >>= next) wanted := by
  intro ps b qs hrun
  obtain ⟨a, rs, ha, hb⟩ := run_bind_eq_ok.mp hrun
  exact hnext a (hact ps a rs ha) rs b qs hb

theorem Gives.imp {other : α → Prop} (h : Gives act property) (himp : ∀ a, property a → other a) :
    Gives act other :=
  fun ps a qs hrun => himp a (h ps a qs hrun)

/-- The last step of a lowering builds its result. -/
theorem Gives.result {f : α → β} (h : Gives act property)
    (hf : ∀ a, property a → wanted (f a)) : Gives (act >>= fun a => Pure.pure (f a)) wanted :=
  h.bind fun a ha => .pure (hf a ha)

theorem Gives.map {f : α → β} (h : Gives act property) (hf : ∀ a, property a → wanted (f a)) :
    Gives (f <$> act) wanted := by
  rw [← bind_pure_comp]
  exact h.result hf

/-- Of a step whose result does not matter nothing has to be known. -/
theorem Gives.after {next : α → Lowering β} (h : ∀ a, Gives (next a) wanted) :
    Gives (act >>= next) wanted := by
  intro ps b qs hrun
  obtain ⟨a, rs, _, hb⟩ := run_bind_eq_ok.mp hrun
  exact h a rs b qs hb

theorem Gives.refuse (e : Expr) (cause : QueryCause) :
    Gives (Lowering.refuse e cause : Lowering α) property :=
  fun _ _ _ hrun => absurd hrun run_refuse_ne_ok

theorem Gives.liftM {act : Outcome α} (h : ∀ a, act = .ok a → property a) :
    Gives (MonadLiftT.monadLift act : Lowering α) property := by
  intro ps a qs hrun
  obtain ⟨b, hb, heq⟩ := run_liftM_eq_ok.mp hrun
  cases heq
  exact h a hb

/-! ## Leaves, indices and operands -/

section

variable {lowered : Lowering Sql} {written : Sql → Prop}

theorem Gives.parameter {d : TypeDefaults} {e : Expr} {name : String} {type : ValueType}
    (h : Text.isPlainName name = true → ∀ storeType, d.resolve {} type = .ok storeType →
      written (.raw (Text.placeholder name storeType))) :
    Gives (Lowering.parameter d e name type) written := by
  unfold Lowering.parameter
  split
  · rename_i hname
    exact Gives.bind (Gives.liftM fun _ => id) fun storeType hresolve =>
      Gives.after fun _ => .pure (h hname storeType hresolve)
  · exact Gives.refuse _ _

theorem Gives.shiftedConstant (e : Expr) (i : Int64) (h : ∀ n : Int, written (.raw (toString n))) :
    Gives (Lowering.shiftedConstant e i) written := by
  unfold Lowering.shiftedConstant
  split
  · exact .pure (h _)
  · exact Gives.refuse _ _

/-- An index that folds is written as a number, any other one is shifted where it stands. -/
theorem Gives.shifted (e : Expr) {index : Expr} {property : Sql → Prop}
    (h : Gives lowered property)
    (hfold : ∀ value, index.fold? = some value → ∀ n : Int, written (.raw (toString n)))
    (hcalculated : ∀ i, property i →
      written (.function "if" [.binary i ">=" (.raw "0"), .binary i "+" (.raw "1"), i])) :
    Gives (Lowering.shifted e index lowered) written := by
  unfold Lowering.shifted
  split
  · rename_i value hvalue
    split
    · exact Gives.shiftedConstant e _ (hfold value hvalue)
    · exact Gives.refuse _ _
  · exact h.result hcalculated

/-- An operand is written as it is lowered, or is a constant in place of which a name is written. -/
theorem Gives.against {peer : Option ValueType} {operand : Expr} (h : Gives lowered written)
    (hname : ∀ value, operand = .constant value → ∀ name, written (.raw (Text.literal name))) :
    Gives (Lowering.against peer operand lowered) written := by
  have hmember : ∀ value, operand = .constant value → ∀ e code,
      Gives (against.member operand e code) written := by
    intro value hvalue e code
    unfold against.member
    split
    · exact .pure (hname value hvalue _)
    · exact Gives.refuse _ _
  unfold Lowering.against
  split
  · split
    · split
      · exact h
      · exact Gives.refuse _ _
    · exact hmember _ rfl _ _
    · split
      · exact hmember _ rfl _ _
      · exact Gives.refuse _ _
    · exact h
  · exact h

end

/-! ## Calls -/

theorem run_receiver_eq_ok {e target : Expr} {bindings : Bindings} {r : Receiver} {t : ValueType}
    {qs : List BoundParameter} (h : (receiver e target bindings).run ps = .ok ((r, t), qs)) :
    target.type? bindings = some t ∧ Receiver.ofType? t = some r ∧ qs = ps := by
  unfold receiver at h
  split at h
  · exact absurd h run_refuse_ne_ok
  · rename_i htype
    split at h
    · exact absurd h run_refuse_ne_ok
    · rename_i hr
      cases run_pure_eq_ok.mp h
      exact ⟨htype, hr, rfl⟩

/-- A field is read off a column, and no parameter is met there. -/
theorem run_fieldArray_eq_ok {e target : Expr} {field : Option String} {s : Sql}
    {qs : List BoundParameter} (h : (fieldArray e target field).run ps = .ok (s, qs)) :
    qs = ps := by
  unfold fieldArray at h
  split at h
  · split at h
    · split at h
      · cases run_pure_eq_ok.mp h
        rfl
      · exact absurd h run_refuse_ne_ok
    · exact absurd h run_refuse_ne_ok
  · exact absurd h run_refuse_ne_ok

/-- A call is lowered by the signature of its method: the receiver first and then the arguments,
in the slots of the signature. -/
theorem run_lower_call {d : TypeDefaults} {bindings : Bindings} {target : Expr} {method : String}
    {arguments : List Expr} {s : Sql} {qs : List BoundParameter}
    (h : ((Expr.call target method arguments).lower d bindings).run ps = .ok (s, qs)) :
    ∃ type r m signature t subject rs as, target.type? bindings = some type ∧
      Receiver.ofType? type = some r ∧ Method.ofName? r method = some m ∧
      signature? m = some signature ∧ (target.lower d bindings).run ps = .ok (t, rs) ∧
      (signature.onField = false → subject = t) ∧
      (lowerArguments d bindings (.call target method arguments) type.element? signature.slots
        arguments).run rs = .ok (as, qs) ∧ s = signature.build subject as := by
  unfold Expr.lower at h
  obtain ⟨⟨r, type⟩, _, hreceiver, hrest⟩ := run_bind_eq_ok.mp h
  obtain ⟨htype, hr, rfl⟩ := run_receiver_eq_ok hreceiver
  dsimp only at hrest
  split at hrest
  · exact absurd hrest run_refuse_ne_ok
  · rename_i m hm
    obtain ⟨t, rs, ht, hsigned⟩ := run_bind_eq_ok.mp hrest
    split at hsigned
    · exact absurd hsigned run_refuse_ne_ok
    · rename_i signature hsignature
      split at hsigned
      · exact absurd hsigned run_refuse_ne_ok
      · split at hsigned
        · rename_i hfield
          obtain ⟨subject, _, hsubject, hbuilt⟩ := run_bind_eq_ok.mp hsigned
          obtain rfl := run_fieldArray_eq_ok hsubject
          obtain ⟨as, _, has, hresult⟩ := run_bind_eq_ok.mp hbuilt
          cases run_pure_eq_ok.mp hresult
          exact ⟨type, r, m, signature, t, subject, _, as, htype, hr, hm, hsignature, ht,
            by simp [hfield], has, rfl⟩
        · obtain ⟨subject, _, hsubject, hbuilt⟩ := run_bind_eq_ok.mp hsigned
          cases run_pure_eq_ok.mp hsubject
          obtain ⟨as, _, has, hresult⟩ := run_bind_eq_ok.mp hbuilt
          cases run_pure_eq_ok.mp hresult
          exact ⟨type, r, m, signature, t, t, _, as, htype, hr, hm, hsignature, ht,
            fun _ => rfl, has, rfl⟩

end Lowering

end ColumnStore
