-- Steps that may be refused. A chain of them succeeds exactly when each of
-- them does, and a list of them gives one result for each. A chain is refused
-- for what one of its steps is refused for.
import ColumnStore.Fault
import Mathlib.Data.List.Forall2

namespace ColumnStore.Outcome

variable {ε α β : Type}

theorem bind_eq_ok {act : Except ε α} {next : α → Except ε β} {b : β} :
    (act >>= next) = .ok b ↔ ∃ a, act = .ok a ∧ next a = .ok b := by
  cases act with
  | error fault =>
    constructor
    · intro h
      cases h
    · rintro ⟨a, h, _⟩
      cases h
  | ok a =>
    constructor
    · intro h
      exact ⟨a, rfl, h⟩
    · rintro ⟨a', ha, h⟩
      cases ha
      exact h

/-- The last step builds the result. -/
theorem bind_pure_eq_ok {act : Except ε α} {f : α → β} {b : β} :
    (act >>= fun a => pure (f a)) = .ok b ↔ ∃ a, act = .ok a ∧ f a = b := by
  rw [bind_eq_ok]
  simp only [pure, Except.pure, Except.ok.injEq]

theorem map_eq_ok {act : Except ε α} {f : α → β} {b : β} :
    f <$> act = .ok b ↔ ∃ a, act = .ok a ∧ f a = b := by
  rw [← bind_pure_comp, bind_pure_eq_ok]

/-- What is built from a result is there where the result is. -/
theorem exists_bind_pure_eq_ok {act : Outcome α} {f : α → β} :
    (∃ b, (act >>= fun a => pure (f a)) = .ok b) ↔ ∃ a, act = .ok a := by
  simp only [bind_pure_eq_ok]
  exact ⟨fun ⟨_, a, ha, _⟩ => ⟨a, ha⟩, fun ⟨a, ha⟩ => ⟨f a, a, ha, rfl⟩⟩

/-- A chain is refused by its first step, or by a later one. -/
theorem bind_eq_error {act : Outcome α} {next : α → Outcome β} {fault : Fault} :
    (act >>= next) = .error fault ↔
      act = .error fault ∨ ∃ a, act = .ok a ∧ next a = .error fault := by
  cases act with
  | error reason =>
    constructor
    · intro h
      cases h
      exact Or.inl rfl
    · rintro (h | ⟨_, h, _⟩)
      · cases h
        rfl
      · cases h
  | ok a =>
    constructor
    · exact fun h => Or.inr ⟨a, rfl, h⟩
    · rintro (h | ⟨_, ha, h⟩)
      · cases h
      · cases ha
        exact h

/-- What gives no result is refused. -/
theorem eq_error_of_ne_ok {act : Outcome α} (h : ∀ a, act ≠ .ok a) :
    ∃ fault, act = .error fault := by
  cases act with
  | error fault => exact ⟨fault, rfl⟩
  | ok a => exact absurd rfl (h a)

theorem mapM_eq_ok {f : α → Outcome β} {l : List α} {bs : List β} :
    l.mapM f = .ok bs ↔ List.Forall₂ (fun a b => f a = .ok b) l bs := by
  induction l generalizing bs with
  | nil =>
    rw [List.mapM_nil, List.forall₂_nil_left_iff]
    constructor
    · intro h
      exact (Except.ok.inj h).symm
    · rintro rfl
      rfl
  | cons a l ih =>
    rw [List.mapM_cons, bind_eq_ok, List.forall₂_cons_left_iff]
    simp only [bind_pure_eq_ok, ih]
    constructor
    · rintro ⟨b, hb, bs', hbs', rfl⟩
      exact ⟨b, bs', hb, hbs', rfl⟩
    · rintro ⟨b, bs', hb, hbs', rfl⟩
      exact ⟨b, hb, bs', hbs', rfl⟩

/-- A list has partners where each of its members has one. -/
theorem exists_forall₂_iff {R : α → β → Prop} {l : List α} :
    (∃ bs, List.Forall₂ R l bs) ↔ ∀ a ∈ l, ∃ b, R a b := by
  induction l with
  | nil => simp
  | cons a l ih =>
    rw [List.forall_mem_cons, ← ih]
    simp only [List.forall₂_cons_left_iff]
    constructor
    · rintro ⟨_, b, bs, hb, hbs, _⟩
      exact ⟨⟨b, hb⟩, bs, hbs⟩
    · rintro ⟨⟨b, hb⟩, bs, hbs⟩
      exact ⟨b :: bs, b, bs, hb, hbs, rfl⟩

theorem exists_mem_of_forall₂ {R : α → β → Prop} {l : List α} {bs : List β}
    (h : List.Forall₂ R l bs) {b : β} (hb : b ∈ bs) : ∃ a ∈ l, R a b := by
  induction h with
  | nil => cases hb
  | cons hfirst _ ih =>
    rcases List.mem_cons.mp hb with rfl | hb
    · exact ⟨_, List.mem_cons_self, hfirst⟩
    · obtain ⟨a, ha, hrest⟩ := ih hb
      exact ⟨a, List.mem_cons_of_mem _ ha, hrest⟩

/-- A list of steps succeeds when each of them does. -/
theorem exists_mapM_eq_ok {f : α → Outcome β} {l : List α} :
    (∃ bs, l.mapM f = .ok bs) ↔ ∀ a ∈ l, ∃ b, f a = .ok b := by
  simp only [mapM_eq_ok]
  exact exists_forall₂_iff

/-- The results of a list of steps are those of its members. -/
theorem mem_of_mapM_eq_ok {f : α → Outcome β} {l : List α} {bs : List β}
    (h : l.mapM f = .ok bs) {b : β} : b ∈ bs ↔ ∃ a ∈ l, f a = .ok b := by
  have hall := mapM_eq_ok.mp h
  clear h
  induction hall with
  | nil => simp
  | @cons a first l bs hfirst _ ih =>
    rw [List.mem_cons, List.exists_mem_cons_iff, hfirst, Except.ok.injEq, eq_comm]
    exact or_congr_right ih

/-- What is done with each result may be done when all of them are there. -/
theorem mapM_bind_pure {γ : Type} (act : α → Outcome β) (f : β → γ) (l : List α) :
    (l.mapM fun a => act a >>= fun b => pure (f b)) =
      l.mapM act >>= fun bs => pure (bs.map f) := by
  induction l with
  | nil => rfl
  | cons a l ih =>
    rw [List.mapM_cons, List.mapM_cons, ih]
    cases act a with
    | error fault => rfl
    | ok b => cases l.mapM act <;> rfl

/-- Checks that are carried out one behind the other pass when each of them does. -/
theorem forM_eq_ok {check : α → Outcome Unit} {l : List α} :
    l.forM check = .ok () ↔ ∀ a ∈ l, check a = .ok () := by
  induction l with
  | nil => simp [pure, Except.pure]
  | cons a l ih =>
    show (check a >>= fun _ => l.forM check) = .ok () ↔ _
    rw [bind_eq_ok, List.forall_mem_cons, ← ih]
    constructor
    · rintro ⟨_, ha, hl⟩
      exact ⟨ha, hl⟩
    · rintro ⟨ha, hl⟩
      exact ⟨(), ha, hl⟩

/-! ## What a step is refused for -/

variable {property : Fault → Prop}

/-- Whatever the step is refused for has the property. -/
def Blames (act : Outcome α) (property : Fault → Prop) : Prop :=
  ∀ fault, act = .error fault → property fault

theorem Blames.ok (a : α) : Blames (.ok a) property := nofun

theorem Blames.error {fault : Fault} (h : property fault) :
    Blames (.error fault : Outcome α) property := by
  intro fault' heq
  cases heq
  exact h

theorem Blames.bind {act : Outcome α} {next : α → Outcome β} (hact : act.Blames property)
    (hnext : ∀ a, (next a).Blames property) : (act >>= next).Blames property := by
  intro fault h
  rcases bind_eq_error.mp h with h | ⟨a, _, h⟩
  · exact hact fault h
  · exact hnext a fault h

theorem Blames.mapM {f : α → Outcome β} (h : ∀ a, (f a).Blames property) (l : List α) :
    (l.mapM f).Blames property := by
  induction l with
  | nil => exact .ok []
  | cons a l ih =>
    rw [List.mapM_cons]
    exact (h a).bind fun b => ih.bind fun bs => .ok (b :: bs)

end ColumnStore.Outcome
