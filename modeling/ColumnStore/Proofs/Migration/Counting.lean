-- The order of a migration by counting. Each operation counts the creations
-- that it waits for, and each creation knows who waits for it. A layer that is
-- placed counts those down, and who has nothing left to wait for is in the next
-- layer. This places the layers that the sort places.
import ColumnStore.Proofs.Migration.CreationOrder
import Mathlib.Data.Finset.Card
import Mathlib.Data.List.Sort

namespace ColumnStore

namespace Operation

/-! ## Counting -/

/-- What is counted for the positions of a batch. -/
structure Counts where
  /-- How many creations the operation waits for. -/
  degree : Nat → Nat
  /-- The operations that wait for the one at the position. -/
  dependents : Nat → List Nat

/-- The operation at `i` waits for the one at `c` as well. -/
def Counts.wait (counts : Counts) (i c : Nat) : Counts where
  degree := Function.update counts.degree i (counts.degree i + 1)
  dependents := Function.update counts.dependents c (counts.dependents c ++ [i])

/-- The first position that creates each table. -/
def creators (operations : List Operation) : String → Option Nat :=
  operations.zipIdx.foldl
    (fun known (o, i) table => (known table).or (if o.creates? = some table then some i else none))
    fun _ => none

/-- Counts the creator of a table that the operation at `i` needs, each creator once. -/
def countNeed (creators : String → Option Nat) (i : Nat) (state : List Nat × Counts)
    (table : String) : List Nat × Counts :=
  match creators table with
  | some c => if c ≠ i ∧ c ∉ state.1 then (c :: state.1, state.2.wait i c) else state
  | none => state

def countNeeds (m : Model) (creators : String → Option Nat) (counts : Counts)
    (entry : Operation × Nat) : Counts :=
  ((entry.1.needs m).foldl (countNeed creators entry.2) ([], counts)).2

def countAll (m : Model) (operations : List Operation) : Counts :=
  operations.zipIdx.foldl (countNeeds m (creators operations)) ⟨fun _ => 0, fun _ => []⟩

/-- The operation at `d` waits for one creation less, and is the next to run with the last of
them. A count never falls below zero. -/
def countDown (state : (Nat → Nat) × List Nat) (d : Nat) : Option ((Nat → Nat) × List Nat) :=
  match state.1 d with
  | 0 => none
  | k + 1 => some (Function.update state.1 d k, if k = 0 then state.2 ++ [d] else state.2)

/-- Places the layer and counts down for it, until a layer is empty. There are as many turns as
the number says at most, and no result where they are not enough. -/
def drain (dependents : Nat → List Nat) (degree : Nat → Nat) (layer placed : List Nat)
    (turns : Nat) : Option (List Nat) :=
  if layer.isEmpty then some placed
  else
    match turns with
    | 0 => none
    | turns + 1 => do
      let (degree, next) ← (layer.flatMap dependents).foldlM countDown (degree, [])
      drain dependents degree next.mergeSort (placed ++ layer) turns

/-- The positions of the operations that can be ordered, by counting. Each turn places one of them
at least. -/
def counted (m : Model) (operations : List Operation) : Option (List Nat) :=
  let counts := countAll m operations
  drain counts.dependents counts.degree
    ((List.range operations.length).filter (counts.degree · = 0)) [] operations.length

variable {m : Model} {operations : List Operation}

/-! ## What is counted -/

theorem creators_eq (operations : List Operation) (table : String) :
    creators operations table = creator? operations table := by
  have hfold : ∀ (rest : List Operation) (k : Nat) (known : String → Option Nat),
      (rest.zipIdx k).foldl (fun known (o, i) table =>
          (known table).or (if o.creates? = some table then some i else none)) known table =
        (known table).or ((creator? rest table).map (· + k)) := by
    intro rest
    induction rest with
    | nil => intro k known; simp [creator?]
    | cons o rest ih =>
      intro k known
      rw [List.zipIdx_cons, List.foldl_cons, ih]
      by_cases hcreates : o.creates? = some table
      · simp [creator?, List.findIdx?_cons, hcreates]
      · have hshift : ∀ x, x + (k + 1) = x + 1 + k := by omega
        simp [creator?, List.findIdx?_cons, hcreates, Option.map_map, Function.comp_def, hshift]
  rw [creators, hfold]
  simp

/-- The creations that the operation waits for, each once. -/
def waitsFor (m : Model) (operations : List Operation) (i : Nat) : Finset Nat :=
  (blockers m operations i).toFinset

theorem mem_waitsFor {i c : Nat} :
    c ∈ waitsFor m operations i ↔ Precedes m operations c i := by
  rw [waitsFor, List.mem_toFinset, mem_blockers]

/-- The creators that are seen of one operation, and what they add to the counts. -/
structure Counted (i : Nat) (before : Counts) (state : List Nat × Counts) : Prop where
  nodup : state.1.Nodup
  degree : state.2.degree = Function.update before.degree i (before.degree i + state.1.length)
  dependents : ∀ c, state.2.dependents c = before.dependents c ++ if c ∈ state.1 then [i] else []

theorem Counted.countNeed {i : Nat} {before : Counts} {state : List Nat × Counts}
    (h : Counted i before state) (creators : String → Option Nat) (table : String) :
    Counted i before (countNeed creators i state table) ∧
      ∀ c, c ∈ (Operation.countNeed creators i state table).1 ↔
        c ∈ state.1 ∨ creators table = some c ∧ c ≠ i := by
  unfold Operation.countNeed
  split
  · rename_i c hc
    split
    · rename_i hnew
      obtain ⟨hnodup, hdegree, hdependents⟩ := h
      refine ⟨⟨List.nodup_cons.mpr ⟨hnew.2, hnodup⟩, ?_, ?_⟩, ?_⟩
      · simp only [Counts.wait, hdegree]
        simp [Nat.add_assoc]
      · intro d
        simp only [Counts.wait]
        by_cases hd : d = c
        · subst hd
          simp [hdependents, hnew.2]
        · simp [hdependents, hd]
      · intro d
        simp only [List.mem_cons, hc, Option.some.injEq]
        constructor
        · rintro (rfl | hd)
          · exact .inr ⟨rfl, hnew.1⟩
          · exact .inl hd
        · rintro (hd | ⟨rfl, _⟩)
          · exact .inr hd
          · exact .inl rfl
    · rename_i hold
      refine ⟨h, fun d => ?_⟩
      rw [hc, Option.some.injEq, iff_self_or]
      rintro ⟨rfl, hd⟩
      by_contra hnew
      exact hold ⟨hd, hnew⟩
  · rename_i hnone
    exact ⟨h, fun d => by simp [hnone]⟩

theorem Counted.foldl {i : Nat} {before : Counts} {state : List Nat × Counts}
    (h : Counted i before state) (creators : String → Option Nat) (tables : List String) :
    Counted i before (tables.foldl (Operation.countNeed creators i) state) ∧
      ∀ c, c ∈ (tables.foldl (Operation.countNeed creators i) state).1 ↔
        c ∈ state.1 ∨ ∃ table ∈ tables, creators table = some c ∧ c ≠ i := by
  induction tables generalizing state with
  | nil => exact ⟨h, by simp⟩
  | cons table tables ih =>
    obtain ⟨hstep, hmem⟩ := h.countNeed creators table
    obtain ⟨hrest, hmemrest⟩ := ih hstep
    refine ⟨hrest, fun c => ?_⟩
    rw [List.foldl_cons, hmemrest, hmem, or_assoc, List.exists_mem_cons_iff]

/-- One operation adds all that it waits for to the counts. -/
theorem countNeeds_eq {i : Nat} {o : Operation} (ho : operations[i]? = some o) (before : Counts) :
    (countNeeds m (creators operations) before (o, i)).degree =
        Function.update before.degree i (before.degree i + (waitsFor m operations i).card) ∧
      ∀ c, (countNeeds m (creators operations) before (o, i)).dependents c =
        before.dependents c ++ if c ∈ waitsFor m operations i then [i] else [] := by
  have hnone : Counted i before ([], before) := ⟨List.nodup_nil, by simp, by simp⟩
  obtain ⟨⟨hnodup, hdegree, hdependents⟩, hseen⟩ :=
    hnone.foldl (creators operations) (o.needs m)
  unfold countNeeds
  generalize (o.needs m).foldl (countNeed (creators operations) i) ([], before) = state at *
  have hsame : state.1.toFinset = waitsFor m operations i := by
    ext c
    rw [List.mem_toFinset, hseen, waitsFor, List.mem_toFinset, blockers, ho]
    simp [creators_eq, ← and_assoc]
  have hmem : ∀ c, c ∈ waitsFor m operations i ↔ c ∈ state.1 := by simp [← hsame]
  refine ⟨?_, fun c => ?_⟩
  · rw [hdegree, ← hsame, List.toFinset_card_of_nodup hnodup]
  · rw [hdependents]
    simp only [hmem]

/-- From the position `k` on, the operations add what they wait for. -/
theorem foldl_countNeeds {rest : List Operation} {k : Nat} (hrest : operations.drop k = rest)
    (before : Counts) :
    (∀ i, ((rest.zipIdx k).foldl (countNeeds m (creators operations)) before).degree i =
      before.degree i + if k ≤ i then (waitsFor m operations i).card else 0) ∧
    ∀ c, ((rest.zipIdx k).foldl (countNeeds m (creators operations)) before).dependents c =
      before.dependents c ++
        (List.range' k rest.length).filter (c ∈ waitsFor m operations ·) := by
  induction rest generalizing k before with
  | nil =>
    have hlength : operations.length ≤ k := List.drop_eq_nil_iff.mp hrest
    refine ⟨fun i => ?_, by simp⟩
    by_cases hi : k ≤ i
    · have hempty : waitsFor m operations i = ∅ := by
        simp [waitsFor, blockers, List.getElem?_eq_none (hlength.trans hi)]
      simp [hempty]
    · simp [hi]
  | cons o rest ih =>
    have ho : operations[k]? = some o := by
      rw [← Nat.add_zero k, ← List.getElem?_drop, hrest, List.getElem?_cons_zero]
    have hnext : operations.drop (k + 1) = rest := by
      rw [← List.drop_drop, hrest, List.drop_one, List.tail_cons]
    obtain ⟨hdegree, hdependents⟩ := countNeeds_eq (m := m) ho before
    obtain ⟨hdegrees, hall⟩ := ih hnext (countNeeds m (creators operations) before (o, k))
    rw [List.zipIdx_cons, List.foldl_cons]
    refine ⟨fun i => ?_, fun c => ?_⟩
    · rw [hdegrees, hdegree]
      rcases Nat.lt_trichotomy i k with hik | rfl | hki
      · simp [hik.ne, Nat.not_le.mpr hik, Nat.not_le.mpr (hik.trans (Nat.lt_succ_self k))]
      · simp
      · simp [hki.ne', hki.le, Nat.succ_le_of_lt hki]
    · rw [hall, hdependents, List.append_assoc, List.length_cons, List.range'_succ,
        List.filter_cons]
      by_cases hc : c ∈ waitsFor m operations k <;> simp [hc]

theorem countAll_degree (m : Model) (operations : List Operation) (i : Nat) :
    (countAll m operations).degree i = (waitsFor m operations i).card := by
  have h := (foldl_countNeeds (m := m) (List.drop_zero (l := operations))
    ⟨fun _ => 0, fun _ => []⟩).1 i
  simpa [countAll] using h

theorem countAll_dependents (m : Model) (operations : List Operation) (c : Nat) :
    (countAll m operations).dependents c =
      (List.range operations.length).filter (c ∈ waitsFor m operations ·) := by
  have h := (foldl_countNeeds (m := m) (List.drop_zero (l := operations))
    ⟨fun _ => 0, fun _ => []⟩).2 c
  rwa [List.nil_append, ← List.range_eq_range'] at h

/-! ## Counting down -/

/-- Counting down once is as good as one place less in the list. -/
theorem update_add_count {degree : Nat → Nat} {d k : Nat} (hk : degree d = k + 1) (l : List Nat)
    (c : Nat) : Function.update degree d k c + (d :: l).count c = degree c + l.count c := by
  by_cases hcd : c = d
  · subst hcd
    rw [Function.update_self, List.count_cons_self, hk]
    omega
  · rw [Function.update_of_ne hcd, List.count_cons_of_ne (Ne.symm hcd)]

/-- Counting down each time that a position stands in the list gives the positions whose count
that was, each once. -/
theorem foldlM_countDown (l : List Nat) (degree : Nat → Nat) (next : List Nat)
    (hle : ∀ d, l.count d ≤ degree d) :
    ∃ reached, l.foldlM countDown (degree, next) =
        some (fun d => degree d - l.count d, next ++ reached) ∧
      reached.Nodup ∧ ∀ d, d ∈ reached ↔ d ∈ l ∧ degree d = l.count d := by
  induction l generalizing degree next with
  | nil => exact ⟨[], by simp, List.nodup_nil, by simp⟩
  | cons d l ih =>
    have hown : (d :: l).count d = l.count d + 1 := List.count_cons_self
    obtain ⟨k, hk⟩ : ∃ k, degree d = k + 1 :=
      Nat.exists_eq_succ_of_ne_zero (by have := hle d; omega)
    have hsum := update_add_count hk l
    obtain ⟨reached, hfold, hnodup, hmem⟩ :=
      ih (Function.update degree d k) (if k = 0 then next ++ [d] else next) fun c => by
        have := hsum c
        have := hle c
        omega
    have hleft : (fun c => Function.update degree d k c - l.count c) =
        fun c => degree c - (d :: l).count c := by
      funext c
      have := hsum c
      omega
    have hreached : ∀ c, c ∈ reached ↔ c ∈ l ∧ degree c = (d :: l).count c := by
      intro c
      rw [hmem]
      refine and_congr_right fun _ => ?_
      have := hsum c
      omega
    have hstep : (d :: l).foldlM countDown (degree, next) =
        l.foldlM countDown (Function.update degree d k, if k = 0 then next ++ [d] else next) := by
      simp [List.foldlM_cons, countDown, hk]
    rw [hstep, hfold, hleft]
    by_cases hzero : k = 0
    · have hlast : l.count d = 0 := by
        have := hle d
        omega
      refine ⟨d :: reached, by simp [hzero], List.nodup_cons.mpr ⟨?_, hnodup⟩, fun c => ?_⟩
      · rw [hreached]
        exact fun h => List.count_eq_zero.mp hlast h.1
      · rw [List.mem_cons, List.mem_cons, hreached, or_and_right]
        refine or_congr_left (and_iff_left_of_imp ?_).symm
        rintro rfl
        omega
    · refine ⟨reached, by simp [hzero], hnodup, fun c => ?_⟩
      rw [hreached, List.mem_cons]
      refine and_congr_left fun hcount => (or_iff_right_of_imp ?_).symm
      rintro rfl
      exact List.count_pos_iff.mp (by omega)

/-! ## Layers -/

/-- The creations that the operation waits for when all layers above `k` are placed. -/
def stillWaits (m : Model) (operations : List Operation) (k i : Nat) : Finset Nat :=
  (waitsFor m operations i).filter (hasChain m operations k · = true)

theorem stillWaits_zero (i : Nat) : stillWaits m operations 0 i = waitsFor m operations i :=
  Finset.filter_true_of_mem fun _ _ => rfl

/-- An operation has a longer chain where something of a chain is still waited for. -/
theorem card_stillWaits_eq_zero_iff {k i : Nat} :
    (stillWaits m operations k i).card = 0 ↔ hasChain m operations (k + 1) i = false := by
  rw [Finset.card_eq_zero, stillWaits, Finset.filter_eq_empty_iff, ← Bool.not_eq_true,
    hasChain_succ]
  simp only [mem_waitsFor]
  exact ⟨fun h ⟨c, hc, hchain⟩ => h hc hchain, fun h c hc hchain => h ⟨c, hc, hchain⟩⟩

/-- A layer that is placed is what the operation waits for no longer. -/
theorem card_stillWaits (k d : Nat) :
    (stillWaits m operations (k + 1) d).card +
        ((waitsFor m operations d).filter (· ∈ layer m operations k)).card =
      (stillWaits m operations k d).card := by
  have hdeeper : (stillWaits m operations k d).filter (hasChain m operations (k + 1) · = true) =
      stillWaits m operations (k + 1) d := by
    rw [stillWaits, Finset.filter_filter, stillWaits]
    refine Finset.filter_congr fun c _ => ?_
    exact ⟨fun h => h.2, fun h => ⟨hasChain_of_succ h, h⟩⟩
  have hplaced : (stillWaits m operations k d).filter (¬ hasChain m operations (k + 1) · = true) =
      (waitsFor m operations d).filter (· ∈ layer m operations k) := by
    rw [stillWaits, Finset.filter_filter]
    refine Finset.filter_congr fun c hc => ?_
    rw [mem_layer, Bool.not_eq_true]
    exact ⟨fun h => ⟨(mem_waitsFor.mp hc).lt_length, h⟩, fun h => h.2⟩
  rw [← hdeeper, ← hplaced, Finset.card_filter_add_card_filter_not]

/-- In the dependents of a layer an operation stands once for each creation of the layer that it
waits for. -/
theorem count_dependents {l : List Nat} (hl : l.Nodup) (d : Nat) :
    (l.flatMap (countAll m operations).dependents).count d =
      ((waitsFor m operations d).filter (· ∈ l)).card := by
  induction l with
  | nil => simp
  | cons c l ih =>
    obtain ⟨hc, hl⟩ := List.nodup_cons.mp hl
    have hfirst : ((countAll m operations).dependents c).count d =
        if c ∈ waitsFor m operations d then 1 else 0 := by
      rw [countAll_dependents]
      by_cases hwaits : c ∈ waitsFor m operations d
      · have hd : d ∈ (List.range operations.length).filter (c ∈ waitsFor m operations ·) := by
          simpa [hwaits] using (mem_waitsFor.mp hwaits).right_lt_length
        rw [if_pos hwaits, List.count_eq_one_of_mem (List.nodup_range.filter _) hd]
      · rw [if_neg hwaits, List.count_eq_zero]
        simp [hwaits]
    have hsplit : (waitsFor m operations d).filter (· ∈ c :: l) =
        (waitsFor m operations d).filter (· = c) ∪ (waitsFor m operations d).filter (· ∈ l) := by
      rw [← Finset.filter_or]
      exact Finset.filter_congr fun b _ => List.mem_cons
    have hdisjoint : Disjoint ((waitsFor m operations d).filter (· = c))
        ((waitsFor m operations d).filter (· ∈ l)) := by
      refine Finset.disjoint_filter.mpr fun b _ hb hmem => ?_
      exact hc (hb ▸ hmem)
    rw [List.flatMap_cons, List.count_append, hfirst, ih hl, hsplit,
      Finset.card_union_of_disjoint hdisjoint, Finset.filter_eq']
    split <;> simp

theorem nodup_layer (k : Nat) : (layer m operations k).Nodup :=
  List.nodup_range.filter _

/-- Placing a layer leaves what is waited for behind it, and gives the next layer. -/
theorem countDown_layer (m : Model) (operations : List Operation) (k : Nat) : ∃ next,
    ((layer m operations k).flatMap (countAll m operations).dependents).foldlM countDown
        (fun i => (stillWaits m operations k i).card, []) =
      some (fun i => (stillWaits m operations (k + 1) i).card, next) ∧
    next.mergeSort = layer m operations (k + 1) := by
  have hcount : ∀ d, ((layer m operations k).flatMap (countAll m operations).dependents).count d +
      (stillWaits m operations (k + 1) d).card = (stillWaits m operations k d).card := by
    intro d
    rw [count_dependents (nodup_layer k), Nat.add_comm, card_stillWaits]
  obtain ⟨next, hfold, hnodup, hmem⟩ := foldlM_countDown
    ((layer m operations k).flatMap (countAll m operations).dependents)
    (fun i => (stillWaits m operations k i).card) [] fun d => by
      have := hcount d
      omega
  refine ⟨next, ?_, ?_⟩
  · rw [hfold, List.nil_append]
    congr
    funext d
    have := hcount d
    omega
  · have hsame : ∀ d, d ∈ next ↔ d ∈ layer m operations (k + 1) := by
      intro d
      have hd := hcount d
      rw [hmem, mem_layer, ← List.count_pos_iff, ← Bool.not_eq_false,
        ← card_stillWaits_eq_zero_iff, ← card_stillWaits_eq_zero_iff]
      constructor
      · rintro ⟨hpos, heq⟩
        have hcard : (stillWaits m operations k d).card ≤ (waitsFor m operations d).card :=
          Finset.card_filter_le _ _
        obtain ⟨c, hc⟩ := Finset.card_pos.mp (by omega : 0 < (waitsFor m operations d).card)
        exact ⟨(mem_waitsFor.mp hc).right_lt_length, by omega, by omega⟩
      · rintro ⟨_, hsome, hnone⟩
        exact ⟨by omega, by omega⟩
    have hperm : next.mergeSort.Perm (layer m operations (k + 1)) :=
      (List.mergeSort_perm _ _).trans ((List.perm_ext_iff_of_nodup hnodup (nodup_layer _)).mpr hsame)
    refine hperm.eq_of_pairwise' (r := (· ≤ ·)) ?_ ?_
    · exact List.pairwise_mergeSort' _ next
    · exact (List.pairwise_lt_range.filter _).imp Nat.le_of_lt

/-! ## The law -/

/-- With the layers above `k` placed, the layers from `k` on are placed behind them. -/
theorem drain_layers {k steps : Nat} (hsteps : k + steps = operations.length) (done : List Nat) :
    drain (countAll m operations).dependents (fun i => (stillWaits m operations k i).card)
        (layer m operations k) done steps =
      some (done ++ (List.range' k steps).flatMap (layer m operations)) := by
  induction steps generalizing k done with
  | zero =>
    have hlast : layer m operations k = [] := by
      rw [List.eq_nil_iff_forall_not_mem]
      intro i hmem
      obtain ⟨hi, hchain, hnot⟩ := mem_layer.mp hmem
      rw [← Nat.add_zero k, hsteps] at hchain
      rw [hasChain_of_length hi hchain] at hnot
      cases hnot
    rw [drain, hlast]
    simp
  | succ steps ih =>
    rw [drain]
    by_cases hempty : layer m operations k = []
    · have hrest : (List.range' k (steps + 1)).flatMap (layer m operations) = [] := by
        rw [List.flatMap_eq_nil_iff]
        intro n hn
        exact layer_eq_nil_of_le hempty (List.mem_range'_1.mp hn).1
      rw [if_pos (List.isEmpty_iff.mpr hempty), hrest, List.append_nil]
    · obtain ⟨next, hnext, hsorted⟩ := countDown_layer m operations k
      rw [if_neg (by simpa using hempty), hnext]
      simp only [Option.bind_eq_bind, Option.bind_some]
      rw [hsorted, ih (by omega), List.range'_succ, List.flatMap_cons, List.append_assoc]

/-- Counting places the layers that the sort places. -/
theorem counted_eq (m : Model) (operations : List Operation) :
    counted m operations = some (placed m operations) := by
  have hdegree : (countAll m operations).degree =
      fun i => (stillWaits m operations 0 i).card := by
    funext i
    rw [countAll_degree, stillWaits_zero]
  have hfirst : (List.range operations.length).filter
      ((countAll m operations).degree · = 0) = layer m operations 0 := by
    refine List.filter_congr fun i _ => ?_
    have hchain : hasChain m operations 0 i = true := rfl
    simp only [hdegree, card_stillWaits_eq_zero_iff, hchain, Bool.true_and]
    cases hasChain m operations (0 + 1) i <;> rfl
  rw [counted, hfirst, hdegree, drain_layers (Nat.zero_add _), placed_eq_flatMap,
    List.range_eq_range', List.nil_append]

/-- The whole sort by counting. Something is left over where fewer are placed than there are. -/
def sortCounted (m : Model) (policy : CyclePolicy) (operations : List Operation) :
    Option (Outcome (List Operation)) := do
  let placed ← counted m operations
  if placed.length = operations.length then return .ok (pick operations placed)
  else
    let rest := (List.range operations.length).filter (!placed.contains ·)
    match policy with
    | .fail => return .error (.circular (rest.filterMap fun i => operations[i]?.bind table?))
    | .preserveOrder => return .ok (pick operations (placed ++ rest))

/-- All are placed exactly where nothing waits in a circle. -/
theorem length_placed_iff : (placed m operations).length = operations.length ↔
    circular m operations = [] := by
  have hlength := (arranged_perm m operations).length_eq
  rw [arranged, List.length_append, List.length_range] at hlength
  rw [← List.length_eq_zero_iff]
  omega

/-- The sort by counting never stops short, and gives what the sort gives. -/
theorem sortCounted_eq (m : Model) (policy : CyclePolicy) (operations : List Operation) :
    sortCounted m policy operations = some (sort m policy operations) := by
  rw [sortCounted, counted_eq]
  simp only [Option.bind_eq_bind, Option.bind_some, length_placed_iff]
  by_cases hrest : circular m operations = []
  · have hall : arranged m operations = placed m operations := by
      rw [arranged, hrest, List.append_nil]
    rw [if_pos hrest, ← hall]
    cases policy with
    | fail => rw [sort_fail_of_circular_eq_nil hrest]; rfl
    | preserveOrder => rw [sort_preserveOrder]; rfl
  · rw [if_neg hrest]
    cases policy with
    | fail => rw [sort_fail_of_circular_ne_nil hrest]; rfl
    | preserveOrder => rw [sort_preserveOrder]; rfl

end Operation

end ColumnStore
