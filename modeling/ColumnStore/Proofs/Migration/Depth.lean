-- The order of a sorted batch told from its circles and depths alone. What is
-- free of circles comes first, by depth and then as given, and what waits for
-- a circle stands behind that, as given.
import ColumnStore.Proofs.Migration.CreationOrder
import Mathlib.Order.Bounds.Basic

namespace ColumnStore

namespace Operation

variable {m : Model} {operations : List Operation}

/-! ## Depths -/

/-- A chain of `n` steps, each from a creation to an operation that needs it, ends at `i`. -/
inductive ChainTo (m : Model) (operations : List Operation) : Nat → Nat → Prop
  | start (i : Nat) : ChainTo m operations 0 i
  | step {n i j : Nat} (h : ChainTo m operations n i) (hij : Precedes m operations i j) :
      ChainTo m operations (n + 1) j

/-- The longest chain that ends at `i` has `n` steps. -/
def IsDepth (m : Model) (operations : List Operation) (i n : Nat) : Prop :=
  IsGreatest {k | ChainTo m operations k i} n

/-- The operation at `i` is the less deep one, or given earlier at the same depth. -/
def Shallower (m : Model) (operations : List Operation) (i j : Nat) : Prop :=
  ∃ a b, IsDepth m operations i a ∧ IsDepth m operations j b ∧ (a < b ∨ a = b ∧ i < j)

theorem chainTo_iff_hasChain {n i : Nat} :
    ChainTo m operations n i ↔ hasChain m operations n i = true := by
  constructor
  · intro h
    induction h with
    | start => rfl
    | step _ hij ih => exact hasChain_succ.mpr ⟨_, hij, ih⟩
  · intro h
    induction n generalizing i with
    | zero => exact .start i
    | succ n ih =>
      obtain ⟨j, hj, hchain⟩ := hasChain_succ.mp h
      exact (ih hchain).step hj

theorem isDepth_iff {i n : Nat} :
    IsDepth m operations i n ↔
      hasChain m operations n i = true ∧ hasChain m operations (n + 1) i = false := by
  unfold IsDepth IsGreatest
  rw [mem_upperBounds, Set.mem_ofPred_eq, chainTo_iff_hasChain]
  refine and_congr_right fun _ => ?_
  constructor
  · intro hbound
    by_contra hlonger
    rw [Bool.not_eq_false] at hlonger
    exact Nat.not_succ_le_self n (hbound _ (chainTo_iff_hasChain.mpr hlonger))
  · intro hnone k hk
    by_contra hgreater
    rw [hasChain_of_le (Nat.lt_of_not_le hgreater) (chainTo_iff_hasChain.mp hk)] at hnone
    cases hnone

/-- A layer holds the operations of one depth. -/
theorem mem_layer_iff_isDepth {i n : Nat} :
    i ∈ layer m operations n ↔ i < operations.length ∧ IsDepth m operations i n := by
  rw [mem_layer, isDepth_iff]

/-! ## What is placed -/

/-- What is placed is free of circles. -/
theorem mem_placed_iff_not_waits {i : Nat} :
    i ∈ placed m operations ↔ i < operations.length ∧ ¬ Waits m operations i := by
  rw [mem_placed, ← mem_circular_iff_waits, mem_circular]
  refine and_congr_right fun hi => ?_
  rw [← Bool.not_eq_true, not_iff_not]
  exact ⟨fun h => ⟨hi, hasChain_of_length hi h⟩, fun h => h.2 _⟩

theorem exists_isDepth_of_mem_placed {i : Nat} (h : i ∈ placed m operations) :
    ∃ n, IsDepth m operations i n := by
  rw [placed_eq_flatMap] at h
  obtain ⟨n, _, hi⟩ := List.mem_flatMap.mp h
  exact ⟨n, (mem_layer_iff_isDepth.mp hi).2⟩

theorem pairwise_placed (m : Model) (operations : List Operation) :
    (placed m operations).Pairwise (Shallower m operations) := by
  rw [placed_eq_flatMap, List.pairwise_flatMap]
  constructor
  · intro n _
    have hlt : (layer m operations n).Pairwise (· < ·) := List.pairwise_lt_range.filter _
    refine List.Pairwise.imp_of_mem ?_ hlt
    intro i j hi hj hij
    exact ⟨n, n, (mem_layer_iff_isDepth.mp hi).2, (mem_layer_iff_isDepth.mp hj).2,
      Or.inr ⟨rfl, hij⟩⟩
  · refine List.pairwise_lt_range.imp ?_
    intro a b hab i hi j hj
    exact ⟨a, b, (mem_layer_iff_isDepth.mp hi).2, (mem_layer_iff_isDepth.mp hj).2, Or.inl hab⟩

/-- Two operations are not swapped where the one that was given first is no deeper. -/
theorem sublist_placed {i j a b : Nat} (hij : i < j) (hi : i ∈ placed m operations)
    (hj : j ∈ placed m operations) (ha : IsDepth m operations i a)
    (hb : IsDepth m operations j b) (hab : a ≤ b) : [i, j].Sublist (placed m operations) := by
  rcases pair_sublist_of_mem (Nat.ne_of_lt hij) hi hj with hs | hs
  · exact hs
  · obtain ⟨b', a', hb', ha', hswapped⟩ :=
      List.pairwise_iff_forall_sublist.mp (pairwise_placed m operations) hs
    rw [hb'.unique hb, ha'.unique ha] at hswapped
    omega

/-! ## The law -/

/-- The sort puts what is free of circles first, by depth and then as given, and behind that, as
given, what waits for a circle. Two operations that are free of circles are never swapped if the
earlier one is no deeper. Where circles are refused, the tables of the operations that wait are
named, as given. -/
theorem sort_orders_by_depth (m : Model) (operations : List Operation) :
    ∃ free waiting : List Nat,
      (∀ i, i ∈ free ↔ i < operations.length ∧ ¬ Waits m operations i) ∧
      (∀ i ∈ free, ∃ n, IsDepth m operations i n) ∧
      free.Pairwise (Shallower m operations) ∧
      (∀ i, i ∈ waiting ↔ Waits m operations i) ∧
      waiting.Pairwise (· < ·) ∧
      (∀ i ∈ free, ∀ j ∈ free, ∀ a b, i < j → IsDepth m operations i a →
        IsDepth m operations j b → a ≤ b → [i, j].Sublist free) ∧
      sort m .preserveOrder operations =
        .ok (pick operations free ++ pick operations waiting) ∧
      sort m .fail operations =
        if waiting = [] then .ok (pick operations free)
        else .error (.circular ((pick operations waiting).filterMap table?)) := by
  refine ⟨placed m operations, circular m operations, fun i => mem_placed_iff_not_waits,
    fun i => exists_isDepth_of_mem_placed, pairwise_placed m operations,
    fun i => mem_circular_iff_waits, List.pairwise_lt_range.filter _, ?_, ?_, ?_⟩
  · intro i hi j hj a b hij ha hb hab
    exact sublist_placed hij hi hj ha hb hab
  · rw [sort_preserveOrder, arranged, pick, List.filterMap_append]
    rfl
  · split
    · rename_i hnil
      rw [sort_fail_of_circular_eq_nil hnil, arranged, hnil, List.append_nil]
    · rename_i hne
      rw [sort_fail_of_circular_ne_nil hne, pick, List.filterMap_filterMap]

-- Two views that read from each other wait, and so do the rows of the second.
example :
    let view (source : String) : EntityKind := .view { sourceTable := source, query := "SELECT 1" }
    let m : Model :=
      { entities := [{ table := "X", kind := view "Y" }, { table := "Y", kind := view "X" }] }
    let on (name : String) (change : TableChange) := onTable ⟨none, name⟩ change
    let fault := Fault.circular ["Y", "X", "X"]
    sort m .fail [on "Y" (.create []), on "X" (.insertData [] []), on "Z" (.create []),
      on "X" (.create [])] = .error fault ∧
      fault.message = "Invalid configuration for migration operation order: got circular " ++
        "dependency between Y, X, X, expected an acyclic set of table dependencies" := ⟨rfl, rfl⟩

end Operation

end ColumnStore
