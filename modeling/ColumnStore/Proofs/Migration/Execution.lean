-- What a migration does to the tables that exist, and why sorting it does no
-- harm: a batch that runs as given also runs sorted, to the same tables, as
-- long as no operation overtakes another that drops or renames its table.
import ColumnStore.Proofs.Migration.CreationOrder
import Mathlib.Data.Finset.Erase
import Mathlib.Data.Finset.Insert

namespace ColumnStore

/-- The tables that the entity reads from or writes to. -/
def Entity.attached (e : Entity) : List String :=
  match e.kind with
  | .view v => v.sourceTable :: v.targetTable.toList
  | .dictionary d =>
    match d.source with
    | .store table _ => [table]
    | _ => []
  | _ => []

namespace Operation

/-! ## Running a batch -/

/-- The tables that exist after the operation; nothing where one that it needs is missing. -/
def run? (m : Model) (tables : Finset String) : Operation → Option (Finset String)
  | onTable object (.create _) =>
    if ((m.entity? object.name).elim [] Entity.attached).all (· ∈ tables) then
      some (insert object.name tables)
    else none
  | onTable object .drop => some (tables.erase object.name)
  | onTable object (.rename name _) =>
    if object.name ∈ tables then some (insert name (tables.erase object.name)) else none
  | onTable object _ => if object.name ∈ tables then some tables else none
  | _ => some tables

/-- The tables that exist after a batch, if each operation of it finds what it needs. -/
def runAll? (m : Model) (tables : Finset String) : List Operation → Option (Finset String)
  | [] => some tables
  | o :: os => do runAll? m (← o.run? m tables) os

/-- Tables that the operation drops, or renames from or to. -/
def moves : Operation → List String
  | onTable object .drop => [object.name]
  | onTable object (.rename name _) => [object.name, name]
  | _ => []

/-- Tables that the operation needs, creates or moves. -/
def names (m : Model) (o : Operation) : List String := o.needs m ++ o.creates?.toList ++ o.moves

/-- One of the operations moves a table that the other names. -/
def Conflict (m : Model) (o p : Operation) : Prop :=
  (∃ t ∈ o.moves, t ∈ p.names m) ∨ ∃ t ∈ p.moves, t ∈ o.names m

/-- Of two operations in conflict, the one that is given first is no deeper than the other. -/
def KeepsMoves (m : Model) (operations : List Operation) : Prop :=
  ∀ i j o p, i < j → operations[i]? = some o → operations[j]? = some p → Conflict m o p →
    NoDeeper m operations i j

/-- Tables are dropped and never renamed, and a drop stands in front of all else that names its
table. -/
structure DropsFirst (m : Model) (operations : List Operation) : Prop where
  drop : ∀ o ∈ operations, o.moves ≠ [] → ∃ object, o = onTable object .drop
  first : ∀ (i j : Nat) (o p : Operation), i < j → operations[i]? = some o →
    operations[j]? = some p → ∀ t ∈ p.moves, t ∉ o.names m

/-! ## What one operation changes -/

variable {m : Model} {operations : List Operation} {tables : Finset String}

/-- Tables that exist after the operation, whatever was there before. -/
def adds : Operation → List String
  | onTable object (.create _) => [object.name]
  | onTable _ (.rename name _) => [name]
  | _ => []

/-- Tables that the operation takes away. -/
def removes : Operation → List String
  | onTable object .drop => [object.name]
  | onTable object (.rename _ _) => [object.name]
  | _ => []

/-- The tables after the operation where nothing is missing. -/
def effect (tables : Finset String) : Operation → Finset String
  | onTable object (.create _) => insert object.name tables
  | onTable object .drop => tables.erase object.name
  | onTable object (.rename name _) => insert name (tables.erase object.name)
  | _ => tables

theorem mem_effect {o : Operation} {t : String} :
    t ∈ o.effect tables ↔ t ∈ o.adds ∨ (t ∈ tables ∧ t ∉ o.removes) := by
  cases o with
  | onTable object change =>
    cases change <;> simp [effect, adds, removes]
    · rw [and_comm]
    · rw [and_comm]
  | _ => simp [effect, adds, removes]

theorem attached_eq_needs (object : ObjectName) (columns : List Column) :
    (m.entity? object.name).elim [] Entity.attached =
      (onTable object (.create columns)).needs m := by
  simp only [needs]
  cases h : m.entity? object.name with
  | none => rfl
  | some e =>
    simp only [Option.elim_some, Option.map_some, Entity.attached]
    cases e.kind with
    | dictionary d => cases hd : d.source <;> simp [hd]
    | _ => rfl

theorem run?_eq_some {o : Operation} {after : Finset String} :
    o.run? m tables = some after ↔ (∀ t ∈ o.needs m, t ∈ tables) ∧ o.effect tables = after := by
  cases o with
  | onTable object change =>
    cases change with
    | create columns =>
      simp only [run?, attached_eq_needs object columns]
      simp [effect]
    | _ => simp [run?, effect, needs]
  | _ => simp [run?, effect, needs]

theorem adds_subset_names {o : Operation} {t : String} (h : t ∈ o.adds) : t ∈ o.names m := by
  unfold adds at h
  split at h <;> simp_all [names, creates?, moves]

theorem removes_subset_moves {o : Operation} {t : String} (h : t ∈ o.removes) : t ∈ o.moves := by
  unfold removes at h
  split at h <;> simp_all [moves]

/-- A table is added by its creation or by a renaming. -/
theorem creates_or_moves_of_adds {o : Operation} {t : String} (h : t ∈ o.adds) :
    o.creates? = some t ∨ t ∈ o.moves := by
  unfold adds at h
  split at h <;> simp_all [creates?, moves]

/-! ## What a batch changes -/

/-- The tables after a batch where nothing is missing. -/
def effects (tables : Finset String) (operations : List Operation) : Finset String :=
  operations.foldl effect tables

/-- The operation at position `i` adds the table. -/
def AddsAt (operations : List Operation) (t : String) (i : Nat) : Prop :=
  ∃ o, operations[i]? = some o ∧ t ∈ o.adds

/-- The operation at position `i` takes the table away. -/
def RemovesAt (operations : List Operation) (t : String) (i : Nat) : Prop :=
  ∃ o, operations[i]? = some o ∧ t ∈ o.removes

theorem pick_append (l r : List Nat) :
    pick operations (l ++ r) = pick operations l ++ pick operations r :=
  List.filterMap_append

theorem pick_singleton {i : Nat} {o : Operation} (ho : operations[i]? = some o) :
    pick operations [i] = [o] := by
  simp [pick, ho]

/-- A table is there after a run if it was added and not taken away behind that, or if it was
there before and is never taken away. The positions run in an order in which no two of them come
before each other. -/
theorem mem_effects_pick {before : Nat → Nat → Prop} {positions : List Nat} {t : String}
    (hasymm : ∀ i j, before i j → ¬ before j i)
    (hlt : ∀ i ∈ positions, i < operations.length) (hrun : positions.Pairwise before) :
    t ∈ effects tables (pick operations positions) ↔
      (∃ a ∈ positions, AddsAt operations t a ∧
        ∀ r ∈ positions, RemovesAt operations t r → ¬ before a r) ∨
      (t ∈ tables ∧ ∀ r ∈ positions, ¬ RemovesAt operations t r) := by
  induction positions using List.reverseRecOn with
  | nil => simp [pick, effects]
  | append_singleton positions i ih =>
    obtain ⟨hrun, -, hlast⟩ := List.pairwise_append.mp hrun
    have hi : ∀ j ∈ positions, before j i := fun j hj => hlast j hj i List.mem_cons_self
    obtain ⟨o, ho⟩ : ∃ o, operations[i]? = some o :=
      ⟨_, List.getElem?_eq_getElem (hlt i (by simp))⟩
    have hadds : AddsAt operations t i ↔ t ∈ o.adds := by simp [AddsAt, ho]
    have hremoves : RemovesAt operations t i ↔ t ∈ o.removes := by simp [RemovesAt, ho]
    have hstep : effects tables (pick operations (positions ++ [i])) =
        o.effect (effects tables (pick operations positions)) := by
      rw [pick_append, pick_singleton ho, effects, List.foldl_append]
      rfl
    rw [hstep, mem_effect, ih (fun j hj => hlt j (by simp [hj])) hrun, ← hadds, ← hremoves]
    constructor
    · rintro (hadd | ⟨⟨a, ha, hadd, hkept⟩ | ⟨hthere, hkept⟩, hnot⟩)
      · refine Or.inl ⟨i, by simp, hadd, ?_⟩
        intro r hr _
        rcases List.mem_append.mp hr with hr | hr
        · exact hasymm r i (hi r hr)
        · rw [List.mem_singleton.mp hr]
          exact fun hself => hasymm i i hself hself
      · refine Or.inl ⟨a, by simp [ha], hadd, ?_⟩
        intro r hr hremove
        rcases List.mem_append.mp hr with hr | hr
        · exact hkept r hr hremove
        · exact absurd (List.mem_singleton.mp hr ▸ hremove) hnot
      · refine Or.inr ⟨hthere, ?_⟩
        intro r hr
        rcases List.mem_append.mp hr with hr | hr
        · exact hkept r hr
        · exact List.mem_singleton.mp hr ▸ hnot
    · rintro (⟨a, ha, hadd, hkept⟩ | ⟨hthere, hkept⟩)
      · rcases List.mem_append.mp ha with ha | ha
        · refine Or.inr ⟨Or.inl ⟨a, ha, hadd, fun r hr => hkept r (by simp [hr])⟩, ?_⟩
          intro hremove
          exact hkept i (by simp) hremove (hi a ha)
        · exact Or.inl (List.mem_singleton.mp ha ▸ hadd)
      · exact Or.inr ⟨Or.inr ⟨hthere, fun r hr => hkept r (by simp [hr])⟩, hkept i (by simp)⟩

/-- A batch runs if each operation of it finds what it needs in the tables that the ones before
it leave. -/
theorem runAll?_pick {positions : List Nat} {after : Finset String}
    (hlt : ∀ i ∈ positions, i < operations.length) :
    runAll? m tables (pick operations positions) = some after ↔
      (∀ done i rest o, positions = done ++ i :: rest → operations[i]? = some o →
        ∀ t ∈ o.needs m, t ∈ effects tables (pick operations done)) ∧
      effects tables (pick operations positions) = after := by
  induction positions generalizing tables with
  | nil => simp [pick, runAll?, effects]
  | cons i positions ih =>
    obtain ⟨o, ho⟩ : ∃ o, operations[i]? = some o :=
      ⟨_, List.getElem?_eq_getElem (hlt i (by simp))⟩
    have hcons : ∀ l, pick operations (i :: l) = o :: pick operations l := by
      intro l
      simp [pick, ho]
    rw [hcons]
    simp only [runAll?, Option.bind_eq_bind, Option.bind_eq_some_iff, run?_eq_some]
    constructor
    · rintro ⟨_, ⟨hneeds, rfl⟩, hrest⟩
      rw [ih (fun j hj => hlt j (by simp [hj]))] at hrest
      refine ⟨?_, hrest.2⟩
      intro done j rest p hsplit hp
      cases done with
      | nil =>
        obtain ⟨rfl, rfl⟩ := List.cons.inj hsplit
        cases ho.symm.trans hp
        exact hneeds
      | cons k done =>
        rw [List.cons_append, List.cons.injEq] at hsplit
        obtain ⟨rfl, hsplit⟩ := hsplit
        rw [hcons]
        exact hrest.1 done j rest p hsplit hp
    · rintro ⟨hneeds, hafter⟩
      refine ⟨_, ⟨hneeds [] i positions o rfl ho, rfl⟩, ?_⟩
      rw [ih (fun j hj => hlt j (by simp [hj]))]
      refine ⟨?_, hafter⟩
      intro done j rest p hsplit hp
      have h := hneeds (i :: done) j rest p (by rw [hsplit, List.cons_append]) hp
      rw [hcons] at h
      exact h

theorem range_split {i n : Nat} (h : i < n) :
    List.range n = List.range i ++ i :: List.range' (i + 1) (n - i - 1) := by
  rw [List.range_eq_range', List.range_eq_range', ← List.range'_succ]
  have happend := @List.range'_append_1 0 i (n - i - 1 + 1)
  rw [Nat.zero_add] at happend
  rw [happend]
  congr 1
  omega

/-! ## What the sort keeps in place -/

theorem Conflict.symm {o p : Operation} (h : Conflict m o p) : Conflict m p o := Or.symm h

/-- Operations in conflict run in the order in which they were given. -/
theorem lt_iff_sooner_of_conflict {i j : Nat} {o p : Operation} (hkeeps : KeepsMoves m operations)
    (ho : operations[i]? = some o) (hp : operations[j]? = some p) (h : Conflict m o p) :
    i < j ↔ Sooner m operations i j := by
  constructor
  · intro hij
    exact ⟨hkeeps i j o p hij ho hp h, fun _ => hij⟩
  · intro hsooner
    rcases Nat.lt_trichotomy i j with hij | rfl | hji
    · exact hij
    · exact absurd hsooner (sooner_asymm hsooner)
    · exact absurd ⟨hkeeps j i p o hji hp ho h.symm, fun _ => hji⟩ (sooner_asymm hsooner)

theorem lt_iff_sooner_of_adds_removes {a r : Nat} {t : String} (hkeeps : KeepsMoves m operations)
    (ha : AddsAt operations t a) (hr : RemovesAt operations t r) :
    a < r ↔ Sooner m operations a r := by
  obtain ⟨o, ho, hadd⟩ := ha
  obtain ⟨p, hp, hremove⟩ := hr
  exact lt_iff_sooner_of_conflict hkeeps ho hp
    (Or.inr ⟨t, removes_subset_moves hremove, adds_subset_names hadd⟩)

/-- No creation of a table is deeper than a later operation that needs it: each of them needs
what the first one needs, and the first one comes before the operation. -/
theorem noDeeper_of_creates {a i : Nat} {o p : Operation} {t : String} (hai : a < i)
    (ho : operations[a]? = some o) (hcreates : o.creates? = some t) (hp : operations[i]? = some p)
    (hneeds : t ∈ p.needs m) : NoDeeper m operations a i := by
  obtain ⟨c, hca, hcreator⟩ := exists_isCreator ho hcreates
  have hci : Precedes m operations c i := ⟨by omega, p, t, hp, hneeds, hcreator⟩
  rintro (_ | n) hchain
  · rfl
  obtain ⟨b, ⟨hne, o', u, ho', hu, hb⟩, hchain⟩ := hasChain_succ.mp hchain
  cases ho.symm.trans ho'
  by_cases hbc : b = c
  · exact hasChain_succ.mpr ⟨c, hci, hbc ▸ hchain⟩
  · obtain ⟨⟨q, hq, hqcreates⟩, _⟩ := hcreator
    rw [needs_eq_of_creates hcreates hqcreates] at hu
    have hbc : Precedes m operations b c := ⟨hbc, q, u, hq, hu, hb⟩
    exact hci.noDeeper _ (hasChain_succ.mpr ⟨b, hbc, hchain⟩)

/-- What an operation finds when it runs as given, it finds when it runs sorted. -/
theorem mem_effects_sorted {done rest : List Nat} {i : Nat} {o : Operation} {t : String}
    (hkeeps : KeepsMoves m operations) (hsplit : arranged m operations = done ++ i :: rest)
    (ho : operations[i]? = some o) (hneeds : t ∈ o.needs m)
    (hfound : t ∈ effects tables (pick operations (List.range i))) :
    t ∈ effects tables (pick operations done) := by
  have hi : i < operations.length := (List.getElem?_eq_some_iff.mp ho).1
  have hpair := pairwise_arranged m operations
  rw [hsplit, List.pairwise_append, List.pairwise_cons] at hpair
  obtain ⟨hdone, ⟨hrest, _⟩, hmid⟩ := hpair
  have hlt : ∀ j ∈ done, j < operations.length := fun j hj =>
    mem_arranged.mp (hsplit ▸ List.mem_append_left _ hj)
  have hmem : ∀ j < operations.length, Sooner m operations j i → j ∈ done := by
    intro j hj hsooner
    have hall : j ∈ done ++ i :: rest := hsplit ▸ mem_arranged.mpr hj
    rcases List.mem_append.mp hall with h | h
    · exact h
    · rcases List.mem_cons.mp h with rfl | h
      · exact absurd hsooner (sooner_asymm hsooner)
      · exact absurd hsooner (sooner_asymm (hrest j h))
  have hremoved : ∀ r ∈ done, RemovesAt operations t r → r < i := by
    rintro r hr ⟨p, hp, hremove⟩
    have hconflict : Conflict m p o :=
      Or.inl ⟨t, removes_subset_moves hremove, by simp [names, hneeds]⟩
    exact (lt_iff_sooner_of_conflict hkeeps hp ho hconflict).mpr (hmid r hr i List.mem_cons_self)
  rw [mem_effects_pick (fun _ _ => sooner_asymm) hlt hdone]
  rw [mem_effects_pick (fun _ _ h => Nat.lt_asymm h)
    (fun j hj => (List.mem_range.mp hj).trans hi) List.pairwise_lt_range] at hfound
  simp only [List.mem_range] at hfound
  rcases hfound with ⟨a, ha, hadd, hkept⟩ | ⟨hthere, hkept⟩
  · left
    have hsooner : Sooner m operations a i := by
      obtain ⟨p, hp, hadds⟩ := hadd
      rcases creates_or_moves_of_adds hadds with hcreates | hmoves
      · exact ⟨noDeeper_of_creates ha hp hcreates ho hneeds, fun _ => ha⟩
      · have hconflict : Conflict m p o := Or.inl ⟨t, hmoves, by simp [names, hneeds]⟩
        exact (lt_iff_sooner_of_conflict hkeeps hp ho hconflict).mp ha
    refine ⟨a, hmem a (ha.trans hi) hsooner, hadd, ?_⟩
    intro r hr hremove
    rw [← lt_iff_sooner_of_adds_removes hkeeps hadd hremove]
    exact hkept r (hremoved r hr hremove) hremove
  · right
    refine ⟨hthere, ?_⟩
    intro r hr hremove
    exact hkept r (hremoved r hr hremove) hremove

/-- A run leaves the same tables as given and sorted. -/
theorem effects_arranged (hkeeps : KeepsMoves m operations) :
    effects tables (pick operations (arranged m operations)) = effects tables operations := by
  ext t
  conv_rhs => rw [← pick_range operations]
  rw [mem_effects_pick (fun _ _ => sooner_asymm) (fun _ => mem_arranged.mp)
    (pairwise_arranged m operations)]
  rw [mem_effects_pick (fun _ _ h => Nat.lt_asymm h) (fun _ => List.mem_range.mp)
    List.pairwise_lt_range]
  simp only [mem_arranged, List.mem_range]
  refine or_congr_left (exists_congr fun a => and_congr_right fun _ => and_congr_right fun hadd => ?_)
  refine forall_congr' fun r => forall_congr' fun _ => forall_congr' fun hremove => ?_
  rw [lt_iff_sooner_of_adds_removes hkeeps hadd hremove]

/-- An operation that waits for no other is no deeper than any. -/
theorem noDeeper_of_blockers_eq_nil {i : Nat} (h : blockers m operations i = []) (j : Nat) :
    NoDeeper m operations i j := by
  rintro (_ | n) hchain
  · rfl
  · simp [hasChain, h] at hchain

/-- A batch that drops and renames nothing keeps every move. -/
theorem keepsMoves_of_moves_eq_nil (h : ∀ o ∈ operations, o.moves = []) :
    KeepsMoves m operations := by
  rintro i j o p _ ho hp (⟨t, ht, _⟩ | ⟨t, ht, _⟩)
  · simp [h o (List.mem_of_getElem? ho)] at ht
  · simp [h p (List.mem_of_getElem? hp)] at ht

/-- A drop waits for nothing, so it may stand in front of whatever makes its table anew. -/
theorem DropsFirst.keepsMoves (h : DropsFirst m operations) : KeepsMoves m operations := by
  rintro i j o p hij ho hp (⟨t, ht, _⟩ | ⟨t, ht, hnamed⟩)
  · obtain ⟨object, rfl⟩ := h.drop o (List.mem_of_getElem? ho) (List.ne_nil_of_mem ht)
    refine noDeeper_of_blockers_eq_nil ?_ j
    simp [blockers, ho, needs]
  · exact absurd hnamed (h.first i j o p hij ho hp t ht)

/-! ## The laws -/

/-- A batch that runs as given also runs sorted, under either policy, and leaves the same tables,
if of two operations in conflict the earlier one is never the deeper one. That is so where nothing
is dropped or renamed, and where each table is dropped before it is named. -/
theorem sorted_batch_runs_as_given {policy : CyclePolicy} {after : Finset String}
    {sorted : List Operation} (hrun : runAll? m tables operations = some after)
    (hsort : sort m policy operations = .ok sorted) :
    (KeepsMoves m operations → runAll? m tables sorted = some after) ∧
      ((∀ o ∈ operations, o.moves = []) → KeepsMoves m operations) ∧
      (DropsFirst m operations → KeepsMoves m operations) := by
  refine ⟨fun hkeeps => ?_, keepsMoves_of_moves_eq_nil, DropsFirst.keepsMoves⟩
  rw [eq_of_sort_eq_ok hsort, runAll?_pick fun _ => mem_arranged.mp]
  rw [← pick_range operations, runAll?_pick fun _ => List.mem_range.mp, pick_range] at hrun
  obtain ⟨hfound, hafter⟩ := hrun
  refine ⟨?_, (effects_arranged hkeeps).trans hafter⟩
  intro done i rest o hsplit ho t hneeds
  have hi : i < operations.length := (List.getElem?_eq_some_iff.mp ho).1
  exact mem_effects_sorted hkeeps hsplit ho hneeds (hfound _ i _ o (range_split hi) ho t hneeds)

/-- A table is dropped and made anew, and its rows and its view move behind another table. -/
theorem recreated_table_runs_sorted :
    let m : Model :=
      { entities := [{ table := "V", kind := .view { sourceTable := "A", query := "SELECT 1" } }] }
    let on (name : String) (change : TableChange) := onTable ⟨none, name⟩ change
    let batch := [on "A" .drop, on "A" (.create []), on "V" (.create []),
      on "A" (.insertData [] []), on "B" (.create [])]
    let sorted := [on "A" .drop, on "A" (.create []), on "B" (.create []), on "V" (.create []),
      on "A" (.insertData [] [])]
    runAll? m {"A"} batch = some {"A", "V", "B"} ∧ KeepsMoves m batch ∧
      sort m .fail batch = .ok sorted ∧ runAll? m {"A"} sorted = some {"A", "V", "B"} := by
  intro m on batch sorted
  have hrun : runAll? m {"A"} batch = some {"A", "V", "B"} := by decide
  have hsort : sort m .fail batch = .ok sorted := by rfl
  have hmoves : ∀ k o, batch[k]? = some o → o.moves ≠ [] → k = 0 := by
    rintro (_ | _ | _ | _ | _ | k) o ho hmove
    · rfl
    all_goals
      cases ho
      try exact absurd rfl hmove
  have hdrops : DropsFirst m batch := by
    constructor
    · intro o ho hmove
      obtain ⟨k, hk⟩ := List.mem_iff_getElem?.mp ho
      rw [hmoves k o hk hmove] at hk
      cases hk
      exact ⟨_, rfl⟩
    · intro i j o p hij _ hp t ht
      have := hmoves j p hp (List.ne_nil_of_mem ht)
      omega
  obtain ⟨hsame, _, hkeeps⟩ := sorted_batch_runs_as_given hrun hsort
  exact ⟨hrun, hkeeps hdrops, hsort, hsame (hkeeps hdrops)⟩

/-- A drop waits for nothing, so it overtakes the rows that are written before it. -/
theorem drop_overtakes_insertion :
    let on (change : TableChange) := onTable ⟨none, "X"⟩ change
    let batch := [on (.create []), on (.insertData [] []), on .drop]
    let sorted := [on (.create []), on .drop, on (.insertData [] [])]
    runAll? {} ∅ batch = some ∅ ∧ sort {} .preserveOrder batch = .ok sorted ∧
      runAll? {} ∅ sorted = none := by
  refine ⟨by decide, rfl, by decide⟩

end Operation

end ColumnStore
