-- What stands in a query's modifiers is written into its text, so it has to be
-- calculated from constants. Anything that is known only when the query runs
-- is refused in the modifiers, before any part of the query is lowered.
import ColumnStore.Proofs.Outcome
import ColumnStore.Query.Select
import Mathlib.Logic.Relation

namespace ColumnStore

namespace Expr

/-! ## Calculations with constants -/

/-- The direct parts of an expression. -/
def parts : Expr → List Expr
  | lambda _ body => [body]
  | binary _ left right => [left, right]
  | not operand | negate operand => [operand]
  | member target _ => [target]
  | call target _ arguments => target :: arguments
  | function _ _ arguments => arguments
  | index target place => [target, place]
  | jsonPath target _ => [target]
  | conditional test whenTrue whenFalse => [test, whenTrue, whenFalse]
  | coalesce left right => [left, right]
  | convert operand _ => [operand]
  | column _ _ _ | constant _ | parameter _ _ | var _ | foreign _ => []

/-- The second expression stands in the first, at any depth. -/
def Contains : Expr → Expr → Prop := Relation.ReflTransGen fun e x => x ∈ e.parts

/-- A constant, a negation or an arithmetic operation, whatever it is applied to. -/
def calculates : Expr → Bool
  | constant _ | negate _ => true
  | binary op _ _ => !op.isComparison && !op.isLogical
  | _ => false

variable {e x : Expr} {v : Value}

theorem calculates_of_fold? (h : e.fold? = some v) : e.calculates = true := by
  cases e with
  | constant | negate => rfl
  | binary op left right =>
    obtain ⟨_, _, h⟩ := Option.bind_eq_some_iff.mp h
    obtain ⟨_, _, h⟩ := Option.bind_eq_some_iff.mp h
    obtain ⟨_, hop, _⟩ := Option.bind_eq_some_iff.mp h
    cases op <;> first | rfl | cases hop
  | _ => cases h

/-- What folds is built from parts that fold. -/
theorem fold?_of_mem_parts (h : e.fold? = some v) (hx : x ∈ e.parts) :
    ∃ w, x.fold? = some w := by
  cases e with
  | constant => cases hx
  | negate operand =>
    obtain ⟨w, hw, _⟩ := Option.bind_eq_some_iff.mp h
    obtain rfl : x = operand := List.mem_singleton.mp hx
    exact ⟨w, hw⟩
  | binary op left right =>
    obtain ⟨l, hl, h⟩ := Option.bind_eq_some_iff.mp h
    obtain ⟨r, hr, _⟩ := Option.bind_eq_some_iff.mp h
    have hside : x = left ∨ x = right := List.mem_pair.mp hx
    rcases hside with rfl | rfl
    · exact ⟨l, hl⟩
    · exact ⟨r, hr⟩
  | _ => cases h

theorem fold?_of_contains (h : e.fold? = some v) (hx : e.Contains x) :
    ∃ w, x.fold? = some w := by
  induction hx with
  | refl => exact ⟨v, h⟩
  | tail _ hpart ih =>
    obtain ⟨w, hw⟩ := ih
    exact fold?_of_mem_parts hw hpart

/-- One part that does not calculate keeps the whole from being a constant. -/
theorem fold?_eq_none_of_contains (hx : e.Contains x) (h : x.calculates = false) :
    e.fold? = none := by
  rw [Option.eq_none_iff_forall_not_mem]
  intro v hv
  obtain ⟨w, hw⟩ := fold?_of_contains hv hx
  rw [calculates_of_fold? hw] at h
  cases h

end Expr

namespace Select

/-! ## The modifiers of a query -/

/-- The arguments that modifiers have. -/
def modifierArguments (q : Select) : List Expr := q.sample.toList ++ q.settings.map (·.2)

/-- A construct without SQL that is one of the modifiers. -/
def IsModifierFault (fault : Fault) : Prop :=
  ∃ modifier ∈ ["FINAL ", "SAMPLE ", "SETTINGS "], ∃ rest cause,
    fault = .inexpressible (modifier ++ rest) cause

/-- The texts of the sample and of the settings, where every modifier is in order. -/
def modifierTexts (q : Select) (t : QueryContext) : Outcome (List String × List String) := do
  q.checkEntity t
  let sample ← q.sample.toList.mapM sampleText
  let settings ← q.settings.mapM fun (name, e) => settingText name e
  return (sample, settings)

/-- The modifiers come first: what they are refused for, the query is refused for. -/
theorem prepare_eq_error {q : Select} {t : QueryContext} {fault : Fault}
    (h : q.modifierTexts t = .error fault) : q.prepare t = .error fault := by
  unfold prepare
  rw [Outcome.bind_eq_error]
  rcases Outcome.bind_eq_error.mp h with hentity | ⟨_, hentity, h⟩
  · exact Or.inl hentity
  refine Or.inr ⟨_, hentity, ?_⟩
  rw [Outcome.bind_eq_error]
  rcases Outcome.bind_eq_error.mp h with hsample | ⟨_, hsample, h⟩
  · exact Or.inl hsample
  refine Or.inr ⟨_, hsample, ?_⟩
  rw [Outcome.bind_eq_error]
  rcases Outcome.bind_eq_error.mp h with hsettings | ⟨_, _, h⟩
  · exact Or.inl hsettings
  · cases h

theorem blames_refuse {α : Type} {construct modifier rest : String}
    (h : modifier ∈ ["FINAL ", "SAMPLE ", "SETTINGS "]) (hconstruct : construct = modifier ++ rest)
    (cause : QueryCause) : (refuse construct cause : Outcome α).Blames IsModifierFault :=
  .error ⟨modifier, h, rest, cause, hconstruct ▸ rfl⟩

theorem blames_checkEntity (q : Select) (t : QueryContext) :
    (q.checkEntity t).Blames IsModifierFault := by
  have hfinal : "FINAL on " ++ q.table = "FINAL " ++ ("on " ++ q.table) := by
    rw [← String.append_assoc]
    rfl
  have hsample : "SAMPLE on " ++ q.table = "SAMPLE " ++ ("on " ++ q.table) := by
    rw [← String.append_assoc]
    rfl
  unfold checkEntity
  split
  · exact .ok ()
  · rename_i entity _
    have hsampled : Outcome.Blames (if q.sample.isSome && entity.sampleBy.isNone then
        refuse ("SAMPLE on " ++ q.table) .notSampled else pure ()) IsModifierFault := by
      split
      · exact blames_refuse (by decide) hsample _
      · exact .ok ()
    dsimp only
    split
    · split
      · exact (blames_refuse (by decide) hfinal _).bind fun _ => hsampled
      · exact hsampled
    · exact hsampled

theorem blames_sampleText (e : Expr) : (sampleText e).Blames IsModifierFault := by
  unfold sampleText
  dsimp only
  split
  · exact blames_refuse (by decide) rfl _
  · split
    · exact .ok _
    · exact blames_refuse (by decide) rfl _

theorem blames_settingText (name : String) (e : Expr) :
    (settingText name e).Blames IsModifierFault := by
  unfold settingText
  dsimp only
  split
  · exact blames_refuse (by decide) rfl _
  · split
    · exact blames_refuse (by decide) rfl _
    · exact blames_refuse (by decide) rfl _
    · exact .ok _

theorem blames_modifierTexts (q : Select) (t : QueryContext) :
    (q.modifierTexts t).Blames IsModifierFault := by
  unfold modifierTexts
  apply (blames_checkEntity q t).bind
  intro _
  apply Outcome.Blames.bind
  · exact .mapM blames_sampleText q.sample.toList
  intro sample
  apply Outcome.Blames.bind
  · apply Outcome.Blames.mapM
    rintro ⟨name, e⟩
    exact blames_settingText name e
  · exact fun settings => .ok (sample, settings)

/-- The modifiers have texts only where each argument is a constant. -/
theorem exists_fold?_of_modifierTexts {q : Select} {t : QueryContext}
    {texts : List String × List String} (h : q.modifierTexts t = .ok texts) {e : Expr}
    (he : e ∈ q.modifierArguments) : ∃ v, e.fold? = some v := by
  obtain ⟨_, _, h⟩ := Outcome.bind_eq_ok.mp h
  obtain ⟨sample, hsample, h⟩ := Outcome.bind_eq_ok.mp h
  obtain ⟨settings, hsettings, _⟩ := Outcome.bind_pure_eq_ok.mp h
  rcases List.mem_append.mp he with he | he
  · obtain ⟨text, htext⟩ := Outcome.exists_mapM_eq_ok.mp ⟨sample, hsample⟩ e he
    unfold sampleText at htext
    dsimp only at htext
    split at htext
    · cases htext
    · rename_i v hv
      exact ⟨v, hv⟩
  · obtain ⟨⟨name, e⟩, hmem, rfl⟩ := List.mem_map.mp he
    obtain ⟨text, htext⟩ := Outcome.exists_mapM_eq_ok.mp ⟨settings, hsettings⟩ (name, e) hmem
    unfold settingText at htext
    dsimp only at htext
    split at htext
    · cases htext
    · split at htext
      · cases htext
      · cases htext
      · rename_i v _ hv
        exact ⟨v, hv⟩

/-! ## The law -/

/-- A modifier whose argument has anything in it but constants, negations and arithmetic makes the
whole query untranslatable, and it is a modifier that is to blame, whatever else is wrong. -/
theorem modifiers_hold_calculations_only (q : Select) (t : QueryContext) {e x : Expr}
    (he : e ∈ q.modifierArguments) (hx : e.Contains x) (h : x.calculates = false) :
    ∃ fault, q.prepare t = .error fault ∧ IsModifierFault fault := by
  cases hmodifiers : q.modifierTexts t with
  | error fault =>
    exact ⟨fault, prepare_eq_error hmodifiers, blames_modifierTexts q t fault hmodifiers⟩
  | ok texts =>
    obtain ⟨v, hv⟩ := exists_fold?_of_modifierTexts hmodifiers he
    rw [Expr.fold?_eq_none_of_contains hx h] at hv
    cases hv

/-- A parameter deep in a setting is to blame before a parameter without a column type in the
filter, which is no fault of a modifier. -/
theorem setting_is_blamed_before_filter :
    let n := Expr.parameter "n" .int64
    let threads := Expr.binary .add (.constant (.int 1)) (.negate n)
    let q : Select := {
      table := "T"
      filters := [.parameter "p" (.other "Point")]
      settings := [("max_block_size", .constant (.int 8)), ("max_threads", threads)] }
    threads ∈ q.modifierArguments ∧ threads.Contains n ∧ n.calculates = false ∧
      (∃ fault, q.prepare {} = .error fault ∧ IsModifierFault fault) ∧
      { q with settings := [] }.prepare {} = .error (.mapping "Point" .unmapped) := by
  intro n threads q
  have hmem : threads ∈ q.modifierArguments := by simp [modifierArguments, q]
  have hnegate : threads.Contains (.negate n) := .single (by simp [threads, Expr.parts])
  have hn : threads.Contains n := hnegate.tail (by simp [Expr.parts])
  have hfilter : { q with settings := [] }.prepare {} = .error (.mapping "Point" .unmapped) := by
    simp only [q]
    rfl
  exact ⟨hmem, hn, rfl, modifiers_hold_calculations_only q {} hmem hn rfl, hfilter⟩

-- Calculations are written as the constants that they come to.
example :
    let threads := Expr.binary .sub (.constant (.int 8)) (.negate (.constant (.int 3)))
    let q : Select := {
      table := "T", sample := some (.constant (.int 100)), settings := [("max_threads", threads)] }
    q.prepare {} = .ok ⟨"SELECT *\nFROM \"T\" SAMPLE 100\nSETTINGS max_threads = 11", []⟩ := rfl

end Select

end ColumnStore
