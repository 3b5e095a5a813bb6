-- The layers in which the operations of a migration are placed. The depth of an
-- operation is the length of the longest chain of creations that leads to it,
-- and a layer holds the operations of one depth. An operation that waits in a
-- circle, or behind one, has chains of every length and is in no layer.
import ColumnStore.Migration.Order
import Mathlib.Data.Fintype.EquivFin
import Mathlib.Logic.Relation
import Mathlib.Order.WellFounded

namespace ColumnStore

namespace Operation

variable {m : Model} {operations : List Operation}

/-! ## What comes before what -/

/-- The operation at `i` is the first that creates the table. -/
def IsCreator (operations : List Operation) (table : String) (i : Nat) : Prop :=
  (∃ o, operations[i]? = some o ∧ o.creates? = some table) ∧
    ∀ k < i, ∀ o, operations[k]? = some o → o.creates? ≠ some table

/-- The operation at `j` needs a table that another operation, the one at `i`, is the first to
create. -/
def Precedes (m : Model) (operations : List Operation) (i j : Nat) : Prop :=
  i ≠ j ∧ ∃ o table, operations[j]? = some o ∧ table ∈ o.needs m ∧ IsCreator operations table i

/-- Some operation waits for itself, through others. -/
def Cyclic (m : Model) (operations : List Operation) : Prop :=
  ∃ i, Relation.TransGen (Precedes m operations) i i

theorem creator?_eq_some {table : String} {i : Nat} :
    creator? operations table = some i ↔ IsCreator operations table i := by
  unfold creator? IsCreator
  rw [List.findIdx?_eq_some_iff_getElem]
  constructor
  · rintro ⟨hi, hc, hfirst⟩
    refine ⟨⟨operations[i], List.getElem?_eq_getElem hi, by simpa using hc⟩, ?_⟩
    intro k hk o ho hcreates
    obtain ⟨hlt, rfl⟩ := List.getElem?_eq_some_iff.mp ho
    exact hfirst k hk (by simpa using hcreates)
  · rintro ⟨⟨o, ho, hc⟩, hfirst⟩
    obtain ⟨hi, rfl⟩ := List.getElem?_eq_some_iff.mp ho
    refine ⟨hi, by simpa using hc, ?_⟩
    intro k hk hcreates
    exact hfirst k hk _ (List.getElem?_eq_getElem (by omega)) (by simpa using hcreates)

/-- A table that is created at all has a first creator. -/
theorem exists_isCreator {table : String} {i : Nat} {o : Operation} (ho : operations[i]? = some o)
    (hc : o.creates? = some table) : ∃ c ≤ i, IsCreator operations table c := by
  induction i using Nat.strong_induction_on generalizing o with
  | _ i ih =>
    by_cases hfirst : ∀ k < i, ∀ p, operations[k]? = some p → p.creates? ≠ some table
    · exact ⟨i, Nat.le_refl i, ⟨o, ho, hc⟩, hfirst⟩
    · push Not at hfirst
      obtain ⟨k, hk, p, hp, hpc⟩ := hfirst
      obtain ⟨c, hck, hcreator⟩ := ih k hk hp hpc
      exact ⟨c, by omega, hcreator⟩

/-- Whoever creates a table needs the same tables for it. -/
theorem needs_eq_of_creates {o p : Operation} {t : String} (ho : o.creates? = some t)
    (hp : p.creates? = some t) : o.needs m = p.needs m := by
  unfold creates? at ho hp
  split at ho
  · split at hp
    · simp only [Option.some.injEq] at ho hp
      simp only [needs, ho, hp]
    · cases hp
  · cases ho

theorem mem_blockers {i j : Nat} :
    i ∈ blockers m operations j ↔ Precedes m operations i j := by
  unfold blockers Precedes
  cases hj : operations[j]? with
  | none => simp
  | some o =>
    simp only [List.mem_filter, List.mem_filterMap, creator?_eq_some, ne_eq, decide_not,
      Bool.not_eq_eq_eq_not, Bool.not_true, decide_eq_false_iff_not, Option.some.injEq]
    constructor
    · rintro ⟨⟨table, ht, hc⟩, hne⟩
      exact ⟨hne, o, table, rfl, ht, hc⟩
    · rintro ⟨hne, o', table, rfl, ht, hc⟩
      exact ⟨⟨table, ht, hc⟩, hne⟩

theorem Precedes.lt_length {i j : Nat} (h : Precedes m operations i j) : i < operations.length := by
  obtain ⟨_, _, _, _, _, ⟨⟨o, ho, _⟩, _⟩⟩ := h
  exact (List.getElem?_eq_some_iff.mp ho).1

theorem Precedes.right_lt_length {i j : Nat} (h : Precedes m operations i j) :
    j < operations.length := by
  obtain ⟨_, o, _, ho, _⟩ := h
  exact (List.getElem?_eq_some_iff.mp ho).1

/-! ## Chains of creations -/

/-- Whether some chain of `n` creations, each needed by the next, leads to the operation
at `i`. -/
def hasChain (m : Model) (operations : List Operation) : Nat → Nat → Bool
  | 0, _ => true
  | n + 1, i => (blockers m operations i).any (hasChain m operations n)

theorem hasChain_succ {n j : Nat} :
    hasChain m operations (n + 1) j = true ↔
      ∃ i, Precedes m operations i j ∧ hasChain m operations n i = true := by
  simp only [hasChain, List.any_eq_true, mem_blockers]

theorem hasChain_of_succ {n i : Nat} (h : hasChain m operations (n + 1) i = true) :
    hasChain m operations n i = true := by
  induction n generalizing i with
  | zero => rfl
  | succ n ih =>
    obtain ⟨j, hj, hchain⟩ := hasChain_succ.mp h
    exact hasChain_succ.mpr ⟨j, hj, ih hchain⟩

theorem hasChain_of_le {k n i : Nat} (hkn : k ≤ n) (h : hasChain m operations n i = true) :
    hasChain m operations k i = true := by
  induction hkn with
  | refl => exact h
  | step _ ih => exact ih (hasChain_of_succ h)

/-- Every length of a chain that leads to `i` is the length of one that leads to `j`: the
operation at `i` is not the deeper one. -/
def NoDeeper (m : Model) (operations : List Operation) (i j : Nat) : Prop :=
  ∀ n, hasChain m operations n i = true → hasChain m operations n j = true

theorem Precedes.noDeeper {i j : Nat} (h : Precedes m operations i j) :
    NoDeeper m operations i j := by
  intro n hn
  exact hasChain_of_succ (hasChain_succ.mpr ⟨i, h, hn⟩)

/-! ## Layers -/

/-- The positions of the operations at depth `n`, in their order. -/
def layer (m : Model) (operations : List Operation) (n : Nat) : List Nat :=
  (List.range operations.length).filter fun i =>
    hasChain m operations n i && !hasChain m operations (n + 1) i

theorem mem_layer {n i : Nat} :
    i ∈ layer m operations n ↔ i < operations.length ∧ hasChain m operations n i = true ∧
      hasChain m operations (n + 1) i = false := by
  simp [layer]

/-- With no operation at depth `n` there is none at any greater depth. -/
theorem hasChain_of_layer_eq_nil {n k i : Nat} (hn : layer m operations n = []) (hk : n ≤ k)
    (hi : i < operations.length) (h : hasChain m operations n i = true) :
    hasChain m operations k i = true := by
  induction k, hk using Nat.le_induction generalizing i with
  | base => exact h
  | succ k hk ih =>
    have hdeeper : ∀ j < operations.length, hasChain m operations n j = true →
        hasChain m operations (n + 1) j = true := by
      intro j hj hchain
      by_contra hnot
      have hmem : j ∈ layer m operations n := mem_layer.mpr ⟨hj, hchain, by simpa using hnot⟩
      rw [hn] at hmem
      exact List.not_mem_nil hmem
    obtain ⟨j, hj, hchain⟩ := hasChain_succ.mp (hdeeper i hi h)
    exact hasChain_succ.mpr ⟨j, hj, ih hj.lt_length hchain⟩

theorem layer_eq_nil_of_le {n k : Nat} (hn : layer m operations n = []) (hk : n ≤ k) :
    layer m operations k = [] := by
  rw [List.eq_nil_iff_forall_not_mem]
  intro i hmem
  obtain ⟨hi, hchain, hnot⟩ := mem_layer.mp hmem
  have := hasChain_of_layer_eq_nil hn (by omega : n ≤ k + 1) hi (hasChain_of_le hk hchain)
  simp [hnot] at this

/-- An operation has chains of every length as soon as it has one as long as the batch: the
layers before it would otherwise be more than there are operations. -/
theorem hasChain_of_length {i : Nat} (hi : i < operations.length)
    (h : hasChain m operations operations.length i = true) (n : Nat) :
    hasChain m operations n i = true := by
  by_cases hempty : ∃ k < operations.length, layer m operations k = []
  · obtain ⟨k, hk, hnil⟩ := hempty
    rcases Nat.le_total n k with hnk | hkn
    · exact hasChain_of_le (by omega) h
    · exact hasChain_of_layer_eq_nil hnil hkn hi (hasChain_of_le (by omega) h)
  · push Not at hempty
    have hpick : ∀ k : Fin operations.length, ∃ j : Fin operations.length,
        j.val ∈ layer m operations k := by
      intro k
      obtain ⟨j, hj⟩ := List.exists_mem_of_ne_nil _ (hempty k k.isLt)
      exact ⟨⟨j, (mem_layer.mp hj).1⟩, hj⟩
    choose pick hpick using hpick
    have hinjective : Function.Injective pick := by
      intro a b hab
      obtain ⟨_, ha, hna⟩ := mem_layer.mp (hpick a)
      obtain ⟨_, hb, hnb⟩ := mem_layer.mp (hpick b)
      rw [hab] at ha hna
      rcases Nat.lt_trichotomy a.val b.val with hlt | heq | hgt
      · simp [hasChain_of_le hlt hb] at hna
      · exact Fin.ext heq
      · simp [hasChain_of_le hgt ha] at hnb
    obtain ⟨k, hk⟩ := Finite.surjective_of_injective hinjective ⟨i, hi⟩
    obtain ⟨_, _, hnot⟩ := mem_layer.mp (hpick k)
    rw [hk] at hnot
    simp [hasChain_of_le k.isLt h] at hnot

/-! ## The order of the positions -/

theorem isReady_eq {n : Nat} {done : List Nat} (i : Nat)
    (hdone : ∀ j, j ∈ done ↔ j < operations.length ∧ hasChain m operations n j = false) :
    isReady m operations done i = !hasChain m operations (n + 1) i := by
  unfold isReady
  rw [Bool.eq_iff_iff, List.all_eq_true, Bool.not_eq_true', ← Bool.not_eq_true, hasChain_succ]
  constructor
  · rintro hall ⟨j, hj, hchain⟩
    have hmem := hall j (mem_blockers.mpr hj)
    rw [List.contains_iff_mem, hdone] at hmem
    simp [hchain] at hmem
  · intro hnone j hj
    have hprecedes := mem_blockers.mp hj
    rw [List.contains_iff_mem, hdone]
    refine ⟨hprecedes.lt_length, ?_⟩
    by_contra hchain
    exact hnone ⟨j, hprecedes, by simpa using hchain⟩

/-- With all depths below `n` placed, what is left is placed layer by layer. -/
theorem layered_eq {steps n : Nat} {done : List Nat}
    (hdone : ∀ j, j ∈ done ↔ j < operations.length ∧ hasChain m operations n j = false) :
    layered m operations steps done
        ((List.range operations.length).filter (hasChain m operations n)) =
      done ++ (List.range' n steps).flatMap (layer m operations) := by
  induction steps generalizing n done with
  | zero => simp [layered]
  | succ steps ih =>
    have hready : ((List.range operations.length).filter (hasChain m operations n)).filter
        (isReady m operations done) = layer m operations n := by
      rw [List.filter_filter]
      apply List.filter_congr
      intro i _
      rw [isReady_eq i hdone, Bool.and_comm]
    have hwaiting : ((List.range operations.length).filter (hasChain m operations n)).filter
        (fun i => !isReady m operations done i) =
          (List.range operations.length).filter (hasChain m operations (n + 1)) := by
      rw [List.filter_filter]
      apply List.filter_congr
      intro i _
      rw [isReady_eq i hdone, Bool.not_not, Bool.and_eq_left_iff_imp]
      exact hasChain_of_succ
    unfold layered
    simp only [hready, hwaiting, List.isEmpty_iff]
    by_cases hnil : layer m operations n = []
    · have hrest : (List.range' n (steps + 1)).flatMap (layer m operations) = [] := by
        rw [List.flatMap_eq_nil_iff]
        intro k hk
        exact layer_eq_nil_of_le hnil (List.mem_range'_1.mp hk).1
      rw [if_pos hnil, hrest, List.append_nil]
    · rw [if_neg hnil, ih, List.range'_succ, List.flatMap_cons, List.append_assoc]
      intro j
      rw [List.mem_append, hdone, mem_layer]
      constructor
      · rintro (⟨hj, hno⟩ | ⟨hj, _, hno⟩)
        · refine ⟨hj, ?_⟩
          by_contra hchain
          rw [Bool.not_eq_false] at hchain
          simp [hasChain_of_succ hchain] at hno
        · exact ⟨hj, hno⟩
      · rintro ⟨hj, hno⟩
        by_cases hchain : hasChain m operations n j = true
        · exact Or.inr ⟨hj, hchain, hno⟩
        · exact Or.inl ⟨hj, by simpa using hchain⟩

/-- The operations that can be ordered are placed layer by layer. -/
theorem placed_eq_flatMap (m : Model) (operations : List Operation) :
    placed m operations = (List.range operations.length).flatMap (layer m operations) := by
  have hdone : ∀ j, j ∈ ([] : List Nat) ↔
      j < operations.length ∧ hasChain m operations 0 j = false := by simp [hasChain]
  have h := @layered_eq m operations operations.length 0 [] hdone
  rw [List.filter_eq_self.mpr (by intro i _; rfl)] at h
  rw [placed, h, List.nil_append, List.range_eq_range']

theorem mem_placed {i : Nat} :
    i ∈ placed m operations ↔
      i < operations.length ∧ hasChain m operations operations.length i = false := by
  rw [placed_eq_flatMap, List.mem_flatMap]
  constructor
  · rintro ⟨n, hn, hmem⟩
    obtain ⟨hi, _, hno⟩ := mem_layer.mp hmem
    refine ⟨hi, ?_⟩
    by_contra hchain
    rw [Bool.not_eq_false] at hchain
    simp [hasChain_of_le (List.mem_range.mp hn) hchain] at hno
  · rintro ⟨hi, hno⟩
    by_contra hout
    push Not at hout
    have hall : ∀ n ≤ operations.length, hasChain m operations n i = true := by
      intro n
      induction n with
      | zero => intro _; rfl
      | succ n ih =>
        intro hn
        by_contra hnot
        exact hout n (List.mem_range.mpr hn) (mem_layer.mpr ⟨hi, ih (by omega), by simpa using hnot⟩)
    simp [hall _ (Nat.le_refl _)] at hno

theorem mem_circular {i : Nat} :
    i ∈ circular m operations ↔ i < operations.length ∧ ∀ n, hasChain m operations n i = true := by
  unfold circular
  simp only [List.mem_filter, List.mem_range, Bool.not_eq_true', ← Bool.not_eq_true,
    List.contains_iff_mem, mem_placed]
  constructor
  · rintro ⟨hi, hnot⟩
    refine ⟨hi, hasChain_of_length hi ?_⟩
    by_contra hchain
    exact hnot ⟨hi, hchain⟩
  · rintro ⟨hi, hall⟩
    exact ⟨hi, fun h => h.2 (hall _)⟩

/-- All positions as the sort arranges them: by depth, and what waits in a circle last. -/
def arranged (m : Model) (operations : List Operation) : List Nat :=
  placed m operations ++ circular m operations

/-- The operation at `i` is the less deep one, or of the same depth and given earlier. -/
def Sooner (m : Model) (operations : List Operation) (i j : Nat) : Prop :=
  NoDeeper m operations i j ∧ (NoDeeper m operations j i → i < j)

theorem sooner_asymm {i j : Nat} (h : Sooner m operations i j) : ¬ Sooner m operations j i := by
  intro hback
  have := h.2 hback.1
  have := hback.2 h.1
  omega

theorem pairwise_layer (n : Nat) : (layer m operations n).Pairwise (Sooner m operations) := by
  have hlt : (layer m operations n).Pairwise (· < ·) := List.pairwise_lt_range.filter _
  refine List.Pairwise.imp_of_mem ?_ hlt
  intro i j hi hj hij
  obtain ⟨_, _, hno⟩ := mem_layer.mp hi
  obtain ⟨_, hchain, _⟩ := mem_layer.mp hj
  refine ⟨?_, fun _ => hij⟩
  intro k hk
  by_cases hkn : k ≤ n
  · exact hasChain_of_le hkn hchain
  · simp [hasChain_of_le (by omega : n + 1 ≤ k) hk] at hno

/-- A chain that leads to `j` alone puts `i` sooner. -/
theorem sooner_of_hasChain {i j n : Nat} (hi : hasChain m operations n i = false)
    (hj : hasChain m operations n j = true) : Sooner m operations i j := by
  constructor
  · intro k hk
    rcases Nat.le_total k n with hkn | hnk
    · exact hasChain_of_le hkn hj
    · simp [hasChain_of_le hnk hk] at hi
  · intro hback
    simp [hback n hj] at hi

theorem pairwise_arranged (m : Model) (operations : List Operation) :
    (arranged m operations).Pairwise (Sooner m operations) := by
  unfold arranged
  rw [List.pairwise_append]
  refine ⟨?_, ?_, ?_⟩
  · rw [placed_eq_flatMap, List.pairwise_flatMap]
    refine ⟨fun n _ => pairwise_layer n, ?_⟩
    refine List.pairwise_lt_range.imp ?_
    intro a b hab i hi j hj
    obtain ⟨_, _, hno⟩ := mem_layer.mp hi
    obtain ⟨_, hchain, _⟩ := mem_layer.mp hj
    exact sooner_of_hasChain hno (hasChain_of_le hab hchain)
  · have hlt : (circular m operations).Pairwise (· < ·) := List.pairwise_lt_range.filter _
    refine List.Pairwise.imp_of_mem ?_ hlt
    intro i j _ hj hij
    exact ⟨fun n _ => (mem_circular.mp hj).2 n, fun _ => hij⟩
  · intro i hi j hj
    exact sooner_of_hasChain (mem_placed.mp hi).2 ((mem_circular.mp hj).2 _)

theorem nodup_arranged (m : Model) (operations : List Operation) :
    (arranged m operations).Nodup := by
  refine (pairwise_arranged m operations).imp ?_
  rintro i j ⟨hdeep, hlt⟩ rfl
  exact Nat.lt_irrefl i (hlt hdeep)

theorem mem_arranged {i : Nat} : i ∈ arranged m operations ↔ i < operations.length := by
  unfold arranged
  rw [List.mem_append]
  constructor
  · rintro (h | h)
    · exact (mem_placed.mp h).1
    · exact (mem_circular.mp h).1
  · intro hi
    by_cases h : i ∈ placed m operations
    · exact Or.inl h
    · right
      simp [circular, hi, h]

theorem arranged_perm (m : Model) (operations : List Operation) :
    (arranged m operations).Perm (List.range operations.length) := by
  rw [List.perm_ext_iff_of_nodup (nodup_arranged m operations) List.nodup_range]
  intro i
  rw [mem_arranged, List.mem_range]

theorem pair_sublist_of_mem {l : List Nat} {i j : Nat} (hne : i ≠ j) (hi : i ∈ l) (hj : j ∈ l) :
    [i, j].Sublist l ∨ [j, i].Sublist l := by
  obtain ⟨before, after, rfl⟩ := List.append_of_mem hi
  rw [List.mem_append, List.mem_cons] at hj
  rcases hj with h | h | h
  · right
    exact (List.singleton_sublist.mpr h).append (List.singleton_sublist.mpr List.mem_cons_self)
  · exact absurd h.symm hne
  · left
    exact (List.nil_sublist before).append ((List.singleton_sublist.mpr h).cons_cons i)

/-- Two positions stand in the order that `Sooner` gives them. -/
theorem sublist_arranged {i j : Nat} (hi : i < operations.length) (hj : j < operations.length)
    (h : Sooner m operations i j) : [i, j].Sublist (arranged m operations) := by
  have hne : i ≠ j := by
    rintro rfl
    exact Nat.lt_irrefl i (h.2 h.1)
  rcases pair_sublist_of_mem hne (mem_arranged.mpr hi) (mem_arranged.mpr hj) with hs | hs
  · exact hs
  · obtain ⟨hdeep, hlt⟩ := List.pairwise_iff_forall_sublist.mp (pairwise_arranged m operations) hs
    have := h.2 hdeep
    have := hlt h.1
    omega

end Operation

end ColumnStore
