import NoteForm.Proofs.Positions

/-! What a move brings to each slot of the new form. The value there is the one of the old field that
feeds the slot, so the links alone decide which old field that is. -/
namespace NoteForm

namespace SlotLinks

/-- The value that links bring to a slot out of the values of the old fields. A slot to which they
bring none is empty. -/
def valueAt (links : SlotLinks) (values : List String) (slot : Slot) : String :=
  ((links.oldSlot? slot).bind fun source => values[source.toNat]?).getD ""

theorem valueAt_of_oldSlot? {links : SlotLinks} {slot source : Slot}
    (h : links.oldSlot? slot = some source) (values : List String) :
    links.valueAt values slot = values[source.toNat]?.getD "" := by
  rw [valueAt, h, Option.bind_some]

theorem valueAt_of_unlinked {links : SlotLinks} {slot : Slot} (h : links.oldSlot? slot = none)
    (values : List String) : links.valueAt values slot = "" := by
  rw [valueAt, h]
  rfl

end SlotLinks

/-- The value a definition gets is the one the links bring to its slot. -/
theorem value_carriedField (policy : LabelPolicy) (links : SlotLinks) (old : List NoteField)
    (definition : FieldDefinition) :
    (carriedField policy links old definition).value =
      links.valueAt (old.map (·.value)) definition.slot := by
  cases hSource : links.oldSlot? definition.slot with
  | none =>
      have hCarried : links.carried? old definition.slot = none := by
        rw [SlotLinks.carried?, hSource]
        rfl
      rw [SlotLinks.valueAt_of_unlinked hSource, carriedField_of_not_carried hCarried]
  | some source =>
      have hCarried : links.carried? old definition.slot = old[source.toNat]? := by
        rw [SlotLinks.carried?, hSource]
        rfl
      rw [SlotLinks.valueAt_of_oldSlot? hSource, List.getElem?_map]
      cases hField : old[source.toNat]? with
      | none => rw [carriedField_of_not_carried (hCarried.trans hField)]; rfl
      | some field => rw [carriedField_of_carried (hCarried.trans hField)]; rfl

/-- Every position in a checked form is the slot of an entry. -/
theorem FieldIndex.exists_entry_of_lt {index : FieldIndex} (h : index.check = .ok ())
    {position : Nat} (hPosition : position < index.size) :
    ∃ entry ∈ index.entries, entry.slot.toNat = position := by
  obtain ⟨-, -, hNodup⟩ := index.check_eq_ok_iff.1 h
  have hSlot : position ∈ index.bySlot.map (·.slot.toNat) := by
    rw [slots_bySlot_of_check h]
    exact List.mem_range.2 hPosition
  obtain ⟨entry, hEntry, rfl⟩ := List.mem_map.1 hSlot
  exact ⟨entry, (bySlot_perm hNodup).mem_iff.1 hEntry, rfl⟩

namespace Move

theorem length_fields_eq_size (move : Move) (policy : LabelPolicy) (old : List NoteField) :
    (move.fields policy old).length = move.target.size := by
  rw [length_fields, (move.target.check_eq_ok_iff.1 move.checked).1]

/-- The values of a moved note are made of the links and the old values. -/
theorem map_value_fields (move : Move) (policy : LabelPolicy) (old : List NoteField) :
    (move.fields policy old).map (·.value) = move.target.bySlot.map fun entry =>
      move.links.valueAt (old.map (·.value)) entry.slot := by
  rw [fields_eq_map, List.map_map]
  exact List.map_congr_left fun entry _ => value_carriedField policy move.links old entry

/-- What stands in a slot of the new form is the value the links bring there. -/
theorem getElem?_values (move : Move) (policy : LabelPolicy) (old : List NoteField) {slot : Slot}
    (h : slot.toNat < move.target.size) :
    ((move.fields policy old).map (·.value))[slot.toNat]? =
      some (move.links.valueAt (old.map (·.value)) slot) := by
  obtain ⟨entry, hEntry, hSlot⟩ := FieldIndex.exists_entry_of_lt move.checked h
  obtain rfl : entry.slot = slot := UInt64.toNat_inj.1 hSlot
  rw [map_value_fields, List.getElem?_map,
    FieldIndex.getElem?_bySlot_of_check move.checked hEntry, Option.map_some]

/-- From a note with this many fields the move delivers the field at `source` to a position of the
new form: the value that stands there is the one of that field, whatever values the fields have. -/
def Delivers (move : Move) (policy : LabelPolicy) (count source position : Nat) : Prop :=
  source < count ∧ ∀ old : List NoteField, old.length = count →
    ((move.fields policy old)[position]?).map (·.value) = (old[source]?).map (·.value)

/-- A note with this many fields in which only one has a value. It shows where that value goes. -/
def oneFilled (count source : Nat) : List NoteField :=
  (List.range count).map fun i => ⟨"", if i = source then "x" else ""⟩

/-- The one value is found in its place only. -/
theorem eq_of_value_oneFilled {count source i : Nat}
    (h : (((oneFilled count source).map (·.value))[i]?).getD "" = "x") : i = source := by
  by_contra hOther
  by_cases hInside : i < count <;> simp [oneFilled, hInside, hOther] at h

/-- A field is delivered to a position exactly if it is the one that feeds the slot there. -/
theorem delivers_iff (move : Move) (policy : LabelPolicy) {count source position : Nat} :
    move.Delivers policy count source position ↔
      source < count ∧ position < move.target.size ∧ ∃ feeding slot : Slot,
        feeding.toNat = source ∧ slot.toNat = position ∧
          move.links.oldSlot? slot = some feeding := by
  constructor
  · rintro ⟨hSource, hDelivered⟩
    -- What is delivered whatever the values are is delivered of a note with this one value.
    have hFilled :
        ((move.fields policy (oneFilled count source))[position]?).map (·.value) = some "x" := by
      rw [hDelivered _ (by simp [oneFilled])]
      simp [oneFilled, hSource]
    obtain ⟨field, hField, -⟩ := Option.map_eq_some_iff.1 hFilled
    have hPosition : position < move.target.size := by
      rw [← move.length_fields_eq_size policy (oneFilled count source)]
      exact (List.getElem?_eq_some_iff.1 hField).1
    obtain ⟨entry, -, rfl⟩ := FieldIndex.exists_entry_of_lt move.checked hPosition
    have hValue := move.getElem?_values policy (oneFilled count source) hPosition
    rw [List.getElem?_map, hFilled, Option.some.injEq] at hValue
    cases hFeeding : move.links.oldSlot? entry.slot with
    | none =>
        rw [SlotLinks.valueAt_of_unlinked hFeeding] at hValue
        simp at hValue
    | some feeding =>
        rw [SlotLinks.valueAt_of_oldSlot? hFeeding] at hValue
        exact ⟨hSource, hPosition, feeding, entry.slot, eq_of_value_oneFilled hValue.symm, rfl,
          hFeeding⟩
  · rintro ⟨hSource, hPosition, feeding, slot, rfl, rfl, hFeeding⟩
    refine ⟨hSource, fun old hLength => ?_⟩
    have hValue := move.getElem?_values policy old hPosition
    rw [List.getElem?_map, SlotLinks.valueAt_of_oldSlot? hFeeding] at hValue
    rw [hValue, List.getElem?_map, List.getElem?_eq_getElem (hLength ▸ hSource)]
    rfl

end Move
end NoteForm
