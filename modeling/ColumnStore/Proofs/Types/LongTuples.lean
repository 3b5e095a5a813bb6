-- Tuples of more items than the eight that a tuple has places for. The items
-- from the eighth on stand in a tuple of their own in the last place, which
-- continues the row; reading such a row gives every item back, once and in its
-- place, whether or not an item is a tuple itself.
import ColumnStore.Proofs.Types.Mapping

namespace ColumnStore

namespace ValueType

/-! ## Rows of any length -/

/-- The row that holds the items: up to seven as they are, else the first seven and, in the eighth
place, a tuple with the row of the others. -/
def overflow (items : List ValueType) : List ValueType :=
  if items.length ≤ 7 then items else items.take 7 ++ [tuple (overflow (items.drop 7))]
termination_by items.length
decreasing_by
  rw [List.length_drop]
  omega

theorem flattenItems_of_length_le {items : List ValueType} (h : items.length ≤ 7) :
    flattenItems items = items := by
  fun_cases flattenItems items with
  | case1 => simp at h
  | case2 => rfl

/-- A tuple behind seven items continues them. -/
theorem flattenItems_append_tuple {front : List ValueType} (h : front.length = 7)
    (rest : List ValueType) :
    flattenItems (front ++ [tuple rest]) = front ++ flattenItems rest := by
  match front, h with
  | [_, _, _, _, _, _, _], _ => simp [flattenItems]

/-- Whichever items are tuples, only the one that the row was continued in is opened again. -/
theorem flattenItems_overflow (items : List ValueType) :
    flattenItems (overflow items) = items := by
  fun_induction overflow items with
  | case1 items hshort => exact flattenItems_of_length_le hshort
  | case2 items hlong ih =>
    have hfront : (items.take 7).length = 7 := by
      rw [List.length_take]
      omega
    rw [flattenItems_append_tuple hfront, ih, List.take_append_drop]

theorem overflow_ne_nil {items : List ValueType} (h : items ≠ []) : overflow items ≠ [] := by
  unfold overflow
  split
  · exact h
  · simp

end ValueType

namespace TypeDefaults

open ValueType

/-! ## The law -/

/-- A row of any length is read back from its nested tuples, and its column type is the tuple of
the types of its items, mapped one by one. -/
theorem long_tuple_keeps_its_items {items : List ValueType} (h : items ≠ []) (d : TypeDefaults)
    (o : TypeOptions) :
    flattenItems (overflow items) = items ∧
      d.storeType o (tuple (overflow items)) =
        (do return .tuple (← items.mapM (d.storeType o))) := by
  have hnonempty : (overflow items).isEmpty = false := by
    simpa using overflow_ne_nil h
  refine ⟨flattenItems_overflow items, ?_⟩
  rw [storeType, hnonempty, itemTypes_eq_mapM_flattenItems, flattenItems_overflow]
  rfl

/-- Of fifteen items, the tuples in the seventh, the eighth, the fourteenth and the last place stay
whole, although the row itself is held by three tuples. -/
theorem tuple_in_fifteenth_place_stays_whole :
    let pair := tuple [.int8, .string]
    let six := List.replicate 6 ValueType.bool
    let items := six ++ [pair, pair] ++ (List.replicate 5 .date ++ [pair, pair])
    items ≠ [] ∧
      overflow items = six ++
        [pair, tuple (pair :: List.replicate 5 .date ++ [pair, tuple [pair]])] ∧
      flattenItems (overflow items) = items ∧
      ({} : TypeDefaults).resolve {} (tuple (overflow items)) =
        .ok ("Tuple(Bool, Bool, Bool, Bool, Bool, Bool, Tuple(Int8, String), " ++
          "Tuple(Int8, String), Date, Date, Date, Date, Date, Tuple(Int8, String), " ++
          "Tuple(Int8, String))") := by
  intro pair six items
  have hrow : overflow items = six ++
      [pair, tuple (pair :: List.replicate 5 .date ++ [pair, tuple [pair]])] := by
    simp [overflow, items, six]
  have hnonempty : items ≠ [] := by simp [items, six]
  obtain ⟨hitems, hstored⟩ := long_tuple_keeps_its_items hnonempty {} {}
  refine ⟨hnonempty, hrow, hitems, ?_⟩
  unfold resolve columnType
  rw [hstored]
  rfl

end TypeDefaults

end ColumnStore
