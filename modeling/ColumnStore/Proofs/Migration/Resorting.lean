-- A sorted batch that is sorted again. The first creation of a table is no
-- deeper than any other creation of it, so it is still the first one behind the
-- sort; every operation needs the same operations as before, at the same depth.
import ColumnStore.Proofs.Migration.CreationOrder

namespace ColumnStore

namespace Operation

variable {m : Model} {operations : List Operation}

/-! ## First creations -/

theorem IsCreator.unique {table : String} {i j : Nat} (hi : IsCreator operations table i)
    (hj : IsCreator operations table j) : i = j := by
  rw [← creator?_eq_some] at hi hj
  exact Option.some.inj (hi.symm.trans hj)

/-- The first creation of a table is no deeper than any other creation of it. -/
theorem IsCreator.noDeeper {table : String} {c j : Nat} {o : Operation}
    (hc : IsCreator operations table c) (ho : operations[j]? = some o)
    (hcreates : o.creates? = some table) : NoDeeper m operations c j := by
  rintro (_ | n) hchain
  · rfl
  obtain ⟨b, ⟨hne, p, t, hp, ht, hb⟩, hchain⟩ := hasChain_succ.mp hchain
  obtain ⟨⟨q, hq, hqcreates⟩, _⟩ := id hc
  cases hp.symm.trans hq
  rw [← needs_eq_of_creates hcreates hqcreates] at ht
  refine hasChain_succ.mpr ⟨b, ⟨?_, o, t, ho, ht, hb⟩, hchain⟩
  -- The operation at `j` creates no other table that it could be the first to create.
  rintro rfl
  obtain ⟨⟨r, hr, hrcreates⟩, _⟩ := id hb
  cases ho.symm.trans hr
  cases hcreates.symm.trans hrcreates
  exact hne (hb.unique hc)

/-! ## Positions behind the sort -/

/-- The batch as the sort arranges it. -/
def sorted (m : Model) (operations : List Operation) : List Operation :=
  pick operations (arranged m operations)

/-- The operation given at `i` stands at `k` behind the sort. -/
def Lands (m : Model) (operations : List Operation) (k i : Nat) : Prop :=
  (arranged m operations)[k]? = some i

theorem getElem?_pick {positions : List Nat} (hlt : ∀ i ∈ positions, i < operations.length)
    (k : Nat) : (pick operations positions)[k]? = positions[k]?.bind (operations[·]?) := by
  induction positions generalizing k with
  | nil => rfl
  | cons i positions ih =>
    obtain ⟨hi, hrest⟩ := List.forall_mem_cons.mp hlt
    have hcons : pick operations (i :: positions) = operations[i] :: pick operations positions := by
      simp [pick, hi]
    rw [hcons]
    cases k with
    | zero => simp [hi]
    | succ k => simpa using ih hrest k

theorem Lands.getElem? {k i : Nat} (h : Lands m operations k i) :
    (sorted m operations)[k]? = operations[i]? := by
  rw [sorted, getElem?_pick fun _ => mem_arranged.mp, h]
  rfl

theorem length_sorted (m : Model) (operations : List Operation) :
    (sorted m operations).length = operations.length :=
  (pick_perm (arranged_perm m operations)).length_eq

theorem exists_lands {k : Nat} (h : k < (sorted m operations).length) :
    ∃ i, Lands m operations k i := by
  rw [length_sorted, ← List.length_range (n := operations.length),
    ← (arranged_perm m operations).length_eq] at h
  exact ⟨_, List.getElem?_eq_getElem h⟩

theorem exists_lands_of_lt {i : Nat} (h : i < operations.length) : ∃ k, Lands m operations k i :=
  List.mem_iff_getElem?.mp (mem_arranged.mpr h)

/-- What lands earlier is sooner. -/
theorem Lands.sooner {k l i j : Nat} (hk : Lands m operations k i) (hl : Lands m operations l j)
    (hkl : k < l) : Sooner m operations i j := by
  obtain ⟨_, rfl⟩ := List.getElem?_eq_some_iff.mp hk
  obtain ⟨_, rfl⟩ := List.getElem?_eq_some_iff.mp hl
  exact List.pairwise_iff_getElem.mp (pairwise_arranged m operations) _ _ _ _ hkl

theorem Lands.injective {k l i : Nat} (hk : Lands m operations k i)
    (hl : Lands m operations l i) : k = l := by
  rcases Nat.lt_trichotomy k l with hlt | heq | hgt
  · exact absurd (hk.sooner hl hlt) (sooner_asymm (hk.sooner hl hlt))
  · exact heq
  · exact absurd (hl.sooner hk hgt) (sooner_asymm (hl.sooner hk hgt))

theorem Lands.lt_of_sooner {k l i j : Nat} (hk : Lands m operations k i)
    (hl : Lands m operations l j) (h : Sooner m operations i j) : k < l := by
  rcases Nat.lt_trichotomy k l with hlt | rfl | hgt
  · exact hlt
  · cases hk.symm.trans hl
    exact absurd h (sooner_asymm h)
  · exact absurd h (sooner_asymm (hl.sooner hk hgt))

/-! ## What comes before what behind the sort -/

/-- The first creation of a table is the first one behind the sort. -/
theorem isCreator_sorted {table : String} {k i : Nat} (h : Lands m operations k i) :
    IsCreator (sorted m operations) table k ↔ IsCreator operations table i := by
  constructor
  · rintro ⟨⟨o, ho, hcreates⟩, hfirst⟩
    rw [h.getElem?] at ho
    obtain ⟨c, hci, hc⟩ := exists_isCreator ho hcreates
    rcases Nat.lt_or_eq_of_le hci with hlt | rfl
    · obtain ⟨⟨p, hp, hpcreates⟩, _⟩ := id hc
      obtain ⟨l, hl⟩ := exists_lands_of_lt (m := m) (List.getElem?_eq_some_iff.mp hp).1
      have hlk : l < k := hl.lt_of_sooner h ⟨hc.noDeeper ho hcreates, fun _ => hlt⟩
      exact absurd hpcreates (hfirst l hlk p (hl.getElem?.trans hp))
    · exact hc
  · rintro hc
    obtain ⟨⟨o, ho, hcreates⟩, hfirst⟩ := id hc
    refine ⟨⟨o, h.getElem?.trans ho, hcreates⟩, ?_⟩
    intro l hl p hp hpcreates
    obtain ⟨j, hj⟩ := exists_lands (List.getElem?_eq_some_iff.mp hp).1
    rw [hj.getElem?] at hp
    have hsooner : Sooner m operations j i := hj.sooner h hl
    have hij : i ≤ j := by
      by_contra hji
      exact hfirst j (Nat.lt_of_not_le hji) p hp hpcreates
    have := hsooner.2 (hc.noDeeper hp hpcreates)
    omega

theorem precedes_sorted {k l i j : Nat} (hk : Lands m operations k i)
    (hl : Lands m operations l j) :
    Precedes m (sorted m operations) k l ↔ Precedes m operations i j := by
  unfold Precedes
  rw [hl.getElem?]
  have hne : k ≠ l ↔ i ≠ j := by
    rw [not_iff_not]
    constructor
    · rintro rfl
      exact Option.some.inj (hk.symm.trans hl)
    · rintro rfl
      exact hk.injective hl
  simp only [hne, isCreator_sorted hk]

/-- Behind the sort every operation is as deep as before. -/
theorem hasChain_sorted {n k i : Nat} (h : Lands m operations k i) :
    hasChain m (sorted m operations) n k = hasChain m operations n i := by
  induction n generalizing k i with
  | zero => rfl
  | succ n ih =>
    rw [Bool.eq_iff_iff, hasChain_succ, hasChain_succ]
    constructor
    · rintro ⟨l, hl, hchain⟩
      obtain ⟨j, hj⟩ := exists_lands hl.lt_length
      exact ⟨j, (precedes_sorted hj h).mp hl, ih hj ▸ hchain⟩
    · rintro ⟨j, hj, hchain⟩
      obtain ⟨l, hl⟩ := exists_lands_of_lt hj.lt_length
      exact ⟨l, (precedes_sorted hl h).mpr hj, (ih hl).symm ▸ hchain⟩

theorem noDeeper_sorted {k l i j : Nat} (hk : Lands m operations k i)
    (hl : Lands m operations l j) :
    NoDeeper m (sorted m operations) k l ↔ NoDeeper m operations i j := by
  unfold NoDeeper
  simp only [hasChain_sorted hk, hasChain_sorted hl]

/-! ## Sorting once more -/

/-- A sorted batch is arranged as it is. -/
theorem arranged_sorted (m : Model) (operations : List Operation) :
    arranged m (sorted m operations) = List.range (sorted m operations).length := by
  refine List.Perm.eq_of_pairwise (fun k l _ _ hkl hlk => absurd hlk (sooner_asymm hkl))
    (pairwise_arranged m (sorted m operations)) ?_ (arranged_perm m (sorted m operations))
  refine List.Pairwise.imp_of_mem ?_ List.pairwise_lt_range
  intro k l hk hl hkl
  obtain ⟨i, hi⟩ := exists_lands (List.mem_range.mp hk)
  obtain ⟨j, hj⟩ := exists_lands (List.mem_range.mp hl)
  exact ⟨(noDeeper_sorted hi hj).mpr (hi.sooner hj hkl).1, fun _ => hkl⟩

/-- A batch without a circle has none behind the sort. -/
theorem circular_sorted_eq_nil (h : circular m operations = []) :
    circular m (sorted m operations) = [] := by
  rw [List.eq_nil_iff_forall_not_mem]
  intro k hk
  obtain ⟨hlt, hchains⟩ := mem_circular.mp hk
  obtain ⟨i, hi⟩ := exists_lands hlt
  have hmem : i ∈ circular m operations := by
    refine mem_circular.mpr ⟨mem_arranged.mp (List.mem_of_getElem? hi), fun n => ?_⟩
    rw [← hasChain_sorted hi, hchains]
  rw [h] at hmem
  exact List.not_mem_nil hmem

/-! ## The law -/

/-- A sorted batch is sorted already. -/
theorem sorting_again_changes_nothing {policy : CyclePolicy} {result : List Operation}
    (h : sort m policy operations = .ok result) : sort m policy result = .ok result := by
  obtain rfl : result = sorted m operations := eq_of_sort_eq_ok h
  have hpick : pick (sorted m operations) (arranged m (sorted m operations)) =
      sorted m operations := by rw [arranged_sorted, pick_range]
  cases policy with
  | preserveOrder => rw [sort_preserveOrder, hpick]
  | fail =>
    have hnil : circular m operations = [] := by
      by_contra hne
      rw [sort_fail_of_circular_ne_nil hne] at h
      cases h
    rw [sort_fail_of_circular_eq_nil (circular_sorted_eq_nil hnil), hpick]

/-- Two views read from each other and one from itself, and tables are created twice: the batch is
sorted once and stays as it is then. -/
theorem circles_and_repeated_creations_stay_sorted :
    let view (source : String) : EntityKind := .view { sourceTable := source, query := "SELECT 1" }
    let m : Model := {
      entities := [{ table := "X", kind := view "Y" }, { table := "Y", kind := view "X" },
        { table := "S", kind := view "S" }] }
    let on (name : String) (change : TableChange) := onTable ⟨none, name⟩ change
    let rows (name : String) := on name (.insertData [] [])
    let make (name : String) := on name (.create [])
    let again (name : String) := on name (.create [{ name := "Id", type := .int32 }])
    let batch := [rows "X", make "Y", rows "T", make "S", again "S", make "X", make "T", again "T"]
    let result := [make "S", make "T", again "T", rows "T", again "S", rows "X", make "Y", make "X"]
    sort m .preserveOrder batch = .ok result ∧ sort m .preserveOrder result = .ok result := by
  intro view m on rows make again batch result
  have horder : order m .preserveOrder batch = .ok [3, 6, 7, 2, 4, 0, 1, 5] := by decide +kernel
  have hsort : sort m .preserveOrder batch = .ok result := by
    rw [sort, horder]
    rfl
  exact ⟨hsort, sorting_again_changes_nothing hsort⟩

end Operation

end ColumnStore
