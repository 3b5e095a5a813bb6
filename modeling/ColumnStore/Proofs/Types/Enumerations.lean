-- Enumerations that are read back from a column type. Codes and their order
-- always survive; a name does where its literal needs no escape other than
-- for quotes and backslashes, which are the two that the reader takes off.
import ColumnStore.Proofs.Types.Stability

namespace ColumnStore

open TypeText

instance (name : String) : Decidable (IsReadable name) :=
  List.decidableBAll (isLettered · = false) name.toList

/-- A name is read back as it was exactly when no character of it is written as a letter. -/
theorem TypeText.respelled_eq_self_iff {name : String} :
    respelled name = name ↔ IsReadable name := by
  constructor
  · intro h c hc
    rw [← h] at hc
    exact not_isLettered_of_mem_respelled hc
  · exact respelled_eq_self

namespace TypeDefaults

variable {d : TypeDefaults} {o : TypeOptions} {e : Enumeration} {text : String}

/-- An enumeration that has a column type fits one of the widths. -/
theorem exists_width_of_resolve (h : d.resolve o (.enumeration e) = .ok text) :
    ∃ width, e.width? = some width := by
  obtain ⟨c, hc, _⟩ := Outcome.bind_eq_ok.mp h
  obtain ⟨stored, hstored, _⟩ := Outcome.bind_eq_ok.mp hc
  rw [storeType, enumType] at hstored
  split at hstored
  · cases hstored
  · split at hstored
    · cases hstored
    · rename_i width hwidth
      exact ⟨width, hwidth⟩

/-- The members are read one for one, under the width's name. -/
theorem ofStoreText_enumeration {width : EnumWidth} (hwidth : e.width? = some width)
    (h : d.resolve o (.enumeration e) = .ok text) :
    ValueType.ofStoreText text = .ok (.enumeration
      ⟨width.typeName, e.members.map fun m => { m with name := respelled m.name }⟩) := by
  have hdefault : ValueType.withDefault o (.enumeration e) = .enumeration e := rfl
  rw [ofStoreText_of_resolve (List.forall_mem_nil _) h, hdefault, ValueType.reread,
    ValueType.normal, hwidth, Option.elim_some, ValueType.rename]

/-- Every enumeration that has a column type is read back with as many members, each under its
own code. A member keeps its name exactly when no line break, carriage return, tab or NUL
stands in it, so the members are the same exactly when this holds of all of them. -/
theorem enumeration_reads_back_iff (h : d.resolve o (.enumeration e) = .ok text) :
    ∃ width members, e.width? = some width ∧
      ValueType.ofStoreText text = .ok (.enumeration ⟨width.typeName, members⟩) ∧
      List.Forall₂ (fun m read : EnumMember => read.code = m.code ∧
        (read.name = m.name ↔ IsReadable m.name)) e.members members ∧
      (members = e.members ↔ ∀ m ∈ e.members, IsReadable m.name) := by
  obtain ⟨width, hwidth⟩ := exists_width_of_resolve h
  refine ⟨width, _, hwidth, ofStoreText_enumeration hwidth h, ?_, ?_⟩
  · rw [List.forall₂_map_right_iff, List.forall₂_same]
    intro m _
    exact ⟨rfl, respelled_eq_self_iff⟩
  · rw [ValueType.map_eq_self_iff]
    refine forall₂_congr fun m _ => ?_
    rw [EnumMember.mk.injEq, and_iff_left rfl, respelled_eq_self_iff]

/-- Names that are runs of quotes and backslashes are kept. -/
theorem quoted_names_are_kept :
    let e : Enumeration :=
      ⟨"Mark", [⟨"it's, (odd) = 1", 1⟩, ⟨"\\'", -2⟩, ⟨"\\n'\\", 300⟩]⟩
    let text := "Enum16('it\\'s, (odd) = 1' = 1, '\\\\\\'' = -2, '\\\\n\\'\\\\' = 300)"
    ({} : TypeDefaults).resolve {} (.enumeration e) = .ok text ∧
      ValueType.ofStoreText text = .ok (.enumeration ⟨"Enum16", e.members⟩) := by
  intro e text
  have hresolve : ({} : TypeDefaults).resolve {} (.enumeration e) = .ok text := by rfl
  obtain ⟨width, members, hwidth, hread, _, hiff⟩ := enumeration_reads_back_iff hresolve
  cases hwidth
  have hreadable : ∀ m ∈ e.members, IsReadable m.name := by decide
  rw [hiff.mpr hreadable] at hread
  exact ⟨hresolve, hread⟩

/-- A line break in a name comes back as a backslash and a letter. -/
theorem line_break_is_read_as_letter :
    let e : Enumeration := ⟨"Mark", [⟨"a\nb", 1⟩]⟩
    ({} : TypeDefaults).resolve {} (.enumeration e) = .ok "Enum8('a\\nb' = 1)" ∧
      ValueType.ofStoreText "Enum8('a\\nb' = 1)" =
        .ok (.enumeration ⟨"Enum8", [⟨"a\\nb", 1⟩]⟩) ∧
      [⟨"a\\nb", 1⟩] ≠ e.members := by
  intro e
  have hresolve : ({} : TypeDefaults).resolve {} (.enumeration e) = .ok "Enum8('a\\nb' = 1)" := by
    rfl
  have hwidth : e.width? = some .byte := rfl
  exact ⟨hresolve, ofStoreText_enumeration hwidth hresolve, by decide⟩

end TypeDefaults

end ColumnStore
