-- The laws of the sort: it loses no operation, it refuses a batch only for a
-- circle, and without a circle each operation runs behind the creations that
-- it needs.
import ColumnStore.Proofs.Migration.Layers

namespace ColumnStore

namespace Operation

variable {m : Model} {operations : List Operation}

/-! ## Circles -/

/-- Along a circle there are chains of every length. -/
theorem hasChain_of_transGen (n : Nat) {i : Nat}
    (h : Relation.TransGen (Precedes m operations) i i) :
    hasChain m operations n i = true := by
  induction n generalizing i with
  | zero => rfl
  | succ n ih =>
    obtain ⟨j, hij, hj⟩ := Relation.TransGen.tail'_iff.mp h
    exact hasChain_succ.mpr ⟨j, hj, ih (Relation.TransGen.head' hj hij)⟩

/-- What is never placed waits for something that is never placed. -/
theorem exists_precedes_of_mem_circular {i : Nat} (hi : i ∈ circular m operations) :
    ∃ j ∈ circular m operations, Precedes m operations j i := by
  obtain ⟨j, hj, hchain⟩ := hasChain_succ.mp ((mem_circular.mp hi).2 (operations.length + 1))
  exact ⟨j, mem_circular.mpr ⟨hj.lt_length, hasChain_of_length hj.lt_length hchain⟩, hj⟩

/-- The operation at `i` stands on a circle, or needs one that does, through others. -/
def Waits (m : Model) (operations : List Operation) (i : Nat) : Prop :=
  ∃ k, Relation.TransGen (Precedes m operations) k k ∧
    Relation.ReflTransGen (Precedes m operations) k i

theorem hasChain_of_waits (n : Nat) {i : Nat} (h : Waits m operations i) :
    hasChain m operations n i = true := by
  obtain ⟨k, hcircle, hreach⟩ := h
  induction hreach with
  | refl => exact hasChain_of_transGen n hcircle
  | tail _ hstep ih => exact hstep.noDeeper n ih

theorem Waits.lt_length {i : Nat} (h : Waits m operations i) : i < operations.length := by
  obtain ⟨k, hcircle, hreach⟩ := h
  obtain ⟨j, _, hj⟩ := Relation.TransGen.tail'_iff.mp (hcircle.trans_left hreach)
  exact hj.right_lt_length

/-- Before an operation that does not wait, needing is well-founded. -/
theorem wellFounded_of_not_waits {i : Nat} (h : ¬ Waits m operations i) :
    WellFounded fun j k : Fin operations.length =>
      Relation.TransGen (Precedes m operations) j.val k.val ∧
        Relation.ReflTransGen (Precedes m operations) k.val i := by
  let before (j k : Fin operations.length) : Prop :=
    Relation.TransGen (Precedes m operations) j.val k.val ∧
      Relation.ReflTransGen (Precedes m operations) k.val i
  have : IsTrans (Fin operations.length) before :=
    ⟨fun _ _ _ hjk hkl => ⟨hjk.1.trans hkl.1, hkl.2⟩⟩
  have : Std.Irrefl before := ⟨fun j hj => h ⟨j, hj⟩⟩
  exact Finite.wellFounded_of_trans_of_irrefl before

/-- What is never placed is exactly what waits: a circle keeps back nothing else. -/
theorem mem_circular_iff_waits {i : Nat} : i ∈ circular m operations ↔ Waits m operations i := by
  constructor
  · intro hi
    by_contra hwaits
    -- Of the operations that are never placed and lead to this one, take the first.
    let stuck : Set (Fin operations.length) := fun k =>
      k.val ∈ circular m operations ∧ Relation.ReflTransGen (Precedes m operations) k.val i
    have hstuck : stuck.Nonempty := ⟨⟨i, (mem_circular.mp hi).1⟩, hi, .refl⟩
    obtain ⟨k, ⟨hk, hreach⟩, hmin⟩ := (wellFounded_of_not_waits hwaits).has_min stuck hstuck
    obtain ⟨j, hj, hjk⟩ := exists_precedes_of_mem_circular hk
    exact hmin ⟨j, hjk.lt_length⟩ ⟨hj, .head hjk hreach⟩ ⟨.single hjk, hreach⟩
  · intro h
    exact mem_circular.mpr ⟨h.lt_length, fun n => hasChain_of_waits n h⟩

theorem circular_ne_nil_iff : circular m operations ≠ [] ↔ Cyclic m operations := by
  constructor
  · intro hne
    obtain ⟨i, hi⟩ := List.exists_mem_of_ne_nil _ hne
    obtain ⟨k, hcircle, _⟩ := mem_circular_iff_waits.mp hi
    exact ⟨k, hcircle⟩
  · rintro ⟨i, hi⟩
    exact List.ne_nil_of_mem (mem_circular_iff_waits.mpr ⟨i, hi, .refl⟩)

/-! ## The sort under each policy -/

/-- The operations at the positions, in their order. -/
def pick (operations : List Operation) (positions : List Nat) : List Operation :=
  positions.filterMap (operations[·]?)

theorem pick_range (operations : List Operation) :
    pick operations (List.range operations.length) = operations := by
  unfold pick
  induction operations using List.reverseRecOn with
  | nil => rfl
  | append_singleton operations o ih =>
    rw [List.length_append, List.length_singleton, List.range_succ, List.filterMap_append]
    congr 1
    · conv_rhs => rw [← ih]
      apply List.filterMap_congr
      intro i hi
      rw [List.getElem?_append_left (List.mem_range.mp hi)]
    · simp

theorem pick_perm {positions : List Nat}
    (h : positions.Perm (List.range operations.length)) :
    (pick operations positions).Perm operations := by
  have hpick := h.filterMap (operations[·]?)
  rw [← pick, ← pick, pick_range] at hpick
  exact hpick

theorem sort_preserveOrder (m : Model) (operations : List Operation) :
    sort m .preserveOrder operations = .ok (pick operations (arranged m operations)) := by
  unfold sort order arranged pick
  by_cases h : circular m operations = []
  · simp [h]
  · simp [h]

theorem sort_fail_of_circular_eq_nil (h : circular m operations = []) :
    sort m .fail operations = .ok (pick operations (arranged m operations)) := by
  unfold sort order arranged pick
  simp [h]

theorem sort_fail_of_circular_ne_nil (h : circular m operations ≠ []) :
    sort m .fail operations = .error (.circular
      ((circular m operations).filterMap fun i => operations[i]?.bind table?)) := by
  unfold sort order
  simp [h]

/-- Whatever the policy, a sort that succeeds gives the same list. -/
theorem eq_of_sort_eq_ok {policy : CyclePolicy} {sorted : List Operation}
    (h : sort m policy operations = .ok sorted) :
    sorted = pick operations (arranged m operations) := by
  cases policy with
  | preserveOrder =>
    rw [sort_preserveOrder] at h
    exact (Except.ok.inj h).symm
  | fail =>
    by_cases hnil : circular m operations = []
    · rw [sort_fail_of_circular_eq_nil hnil] at h
      exact (Except.ok.inj h).symm
    · rw [sort_fail_of_circular_ne_nil hnil] at h
      cases h

/-- An operation whose creations are all placed stands behind each of them. -/
theorem sooner_of_precedes {i j : Nat} (h : Precedes m operations i j)
    (hj : j ∉ circular m operations) : Sooner m operations i j := by
  refine ⟨h.noDeeper, ?_⟩
  intro hback
  refine absurd (mem_circular.mpr ⟨h.right_lt_length, ?_⟩) hj
  -- Each chain that leads to `j` leads to `i`, and is one longer at `j`.
  intro n
  induction n with
  | zero => rfl
  | succ n ih => exact hasChain_succ.mpr ⟨i, h, hback n ih⟩

/-! ## The laws -/

/-- The sort lists each operation once. It refuses a batch only under the policy that refuses
circles, and then exactly the batches with a circle; without a circle, each operation stands
behind the first creation of every table that it needs. -/
theorem sort_puts_creations_first (m : Model) (operations : List Operation) :
    ∃ positions : List Nat, positions.Perm (List.range operations.length) ∧
      sort m .preserveOrder operations = .ok (pick operations positions) ∧
      (pick operations positions).Perm operations ∧
      ((∃ fault, sort m .fail operations = .error fault) ↔ Cyclic m operations) ∧
      (¬ Cyclic m operations →
        sort m .fail operations = .ok (pick operations positions) ∧
        ∀ i j, Precedes m operations i j → [i, j].Sublist positions) := by
  have hperm := arranged_perm m operations
  refine ⟨arranged m operations, hperm, sort_preserveOrder m operations, ?_, ?_, ?_⟩
  · have h := hperm.filterMap (operations[·]?)
    rw [← pick, ← pick, pick_range] at h
    exact h
  · rw [← circular_ne_nil_iff]
    constructor
    · rintro ⟨fault, hfault⟩ hnil
      rw [sort_fail_of_circular_eq_nil hnil] at hfault
      cases hfault
    · intro hne
      exact ⟨_, sort_fail_of_circular_ne_nil hne⟩
  · intro hcyclic
    have hnil : circular m operations = [] := by
      by_contra hne
      exact hcyclic (circular_ne_nil_iff.mp hne)
    refine ⟨sort_fail_of_circular_eq_nil hnil, ?_⟩
    intro i j h
    exact sublist_arranged h.lt_length h.right_lt_length (sooner_of_precedes h (by simp [hnil]))

end Operation

end ColumnStore
