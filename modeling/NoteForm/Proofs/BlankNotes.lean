import NoteForm.Proofs.DeclarationOrder
import NoteForm.Proofs.Delivery

/-! Notes that have the names of their note type in slot order. A blank note is one of them, and moved
to its own type over links that leave every slot where it is, such a note keeps its values. -/
namespace NoteForm

namespace FieldIndex

variable {index : FieldIndex}

/-- Out of no old fields nothing comes to any slot. -/
theorem carryOver_nil (h : index.check = .ok ()) (links : SlotLinks) (policy : LabelPolicy) :
    index.carryOver links policy [] = index.bySlot.map fun entry => ⟨entry.name, ""⟩ := by
  change Move.fields ⟨index, links, h⟩ policy [] = _
  rw [Move.fields_eq_map]
  refine List.map_congr_left fun entry _ => carriedField_of_not_carried ?_ policy
  rw [Option.eq_none_iff_forall_ne_some]
  intro field hField
  obtain ⟨source, -, hOld⟩ := (links.carried?_eq_some_iff [] entry.slot field).1 hField
  cases hOld

/-- A note whose names are those of the entries in slot order is carried over in place: the positions
of its fields are the slots of the entries. -/
theorem carryOver_identity (h : index.check = .ok ()) {fields : List NoteField}
    (hNames : fields.map (·.name) = index.bySlot.map (·.name)) {count : Slot}
    (hCount : index.size ≤ count.toNat) (policy : LabelPolicy) :
    index.carryOver (.identity count) policy fields = fields.map fun field =>
      ⟨if policy.namesOldFields index.size then policy.label field.name field.name
        else field.name, field.value⟩ := by
  let still : Move := ⟨index, .identity count, h⟩
  have hMoved : (still.fields policy fields).length = index.size :=
    still.length_fields_eq_size policy fields
  have hLength : fields.length = index.size := by
    rw [← length_bySlot_of_check h]
    simpa using congrArg List.length hNames
  change still.fields policy fields = _
  refine List.ext_getElem? fun position => ?_
  by_cases hPosition : position < index.size
  · obtain ⟨entry, hEntry, rfl⟩ := exists_entry_of_lt h hPosition
    obtain ⟨field, hField⟩ : ∃ field, fields[entry.slot.toNat]? = some field :=
      ⟨_, List.getElem?_eq_getElem (hLength ▸ hPosition)⟩
    have hName : field.name = entry.name := by
      have hAt := congrArg (·[entry.slot.toNat]?) hNames
      simpa [hField, getElem?_bySlot_of_check h hEntry] using hAt
    have hCarried : still.links.carried? fields entry.slot = some field := by
      have hInside : entry.slot < count :=
        UInt64.lt_iff_toNat_lt.2 (Nat.lt_of_lt_of_le hPosition hCount)
      simp [SlotLinks.carried?, still, hInside, hField]
    rw [still.getElem?_fields policy fields hEntry, carriedField_of_carried hCarried,
      List.getElem?_map, hField, Option.map_some, hName, hLength]
  · rw [List.getElem?_eq_none (by omega), List.getElem?_eq_none (by simpa [hLength] using hPosition)]

end FieldIndex

namespace NoteType

/-- The declared names in slot order are the names of the entries of any checked index in slot order.
A move of no fields at all gives the fields of the blank note. A note that has these names is moved to
its own type over links that leave all slots where they are: its values stay, its names stay as long
as labels do not name old fields, and otherwise each label is made from one name taken twice. -/
theorem notes_stand_in_slot_order (t : NoteType) {index : FieldIndex} (h : index.IsIndexOf t)
    (hChecked : index.check = .ok ()) (policy : LabelPolicy) :
    t.fieldNames = index.bySlot.map (·.name) ∧
      (∀ links, index.carryOver links policy [] = (Note.blank t).fields) ∧
      ∀ (note : Note) (count : Slot), note.fields.map (·.name) = t.fieldNames →
        t.fields.length ≤ count.toNat →
          let moved := index.carryOver (.identity count) policy note.fields
          moved.map (·.value) = note.fields.map (·.value) ∧
            (t.fields.length ≤ policy.minOldFields.toNat → moved = note.fields) ∧
            (policy.minOldFields.toNat < t.fields.length →
              moved.map (·.name) = note.fields.map fun field =>
                policy.label field.name field.name) := by
  have hFieldNames := h.fieldNames_eq hChecked
  refine ⟨hFieldNames, fun links => ?_, fun note count hNames hCount => ?_⟩
  · rw [FieldIndex.carryOver_nil hChecked, Note.blank, hFieldNames, List.map_map]
    rfl
  rw [← h.size_eq_length hChecked] at hCount ⊢
  have hMoved := FieldIndex.carryOver_identity hChecked (hNames.trans hFieldNames) hCount policy
  rw [LabelPolicy.namesOldFields] at hMoved
  refine ⟨?_, fun hPlain => ?_, fun hLabelled => ?_⟩
  · rw [hMoved, List.map_map]
    rfl
  · rw [hMoved, decide_eq_false (Nat.not_lt.2 hPlain)]
    exact List.map_id _
  · rw [hMoved, List.map_map, decide_eq_true hLabelled]
    rfl

theorem notes_stand_in_slot_order_upsideDown :
    let note : Note := ⟨"Verse", [⟨"Title", "Sea"⟩, ⟨"Poet", "Li"⟩, ⟨"Line", "\x7bnew\x7d"⟩]⟩
    upsideDown.index.check = .ok () ∧ note.fields.map (·.name) = upsideDown.fieldNames ∧
      upsideDown.index.carryOver (.identity 5) ⟨3, "\x7bold\x7d"⟩ note.fields = note.fields ∧
      (upsideDown.index.carryOver (.identity 5) .standard note.fields).map (·.name) =
        ["Title (was: Title)", "Poet (was: Poet)", "Line (was: Line)"] := by
  intro note
  have hChecked : upsideDown.index.check = .ok () := by decide
  have hNames : note.fields.map (·.name) = upsideDown.fieldNames := by decide
  obtain ⟨-, -, hPlain⟩ := notes_stand_in_slot_order upsideDown upsideDown.isIndexOf_index
    hChecked ⟨3, "\x7bold\x7d"⟩
  obtain ⟨-, -, hLabelled⟩ := notes_stand_in_slot_order upsideDown upsideDown.isIndexOf_index
    hChecked .standard
  obtain ⟨-, hSame, -⟩ := hPlain note 5 hNames (by decide)
  obtain ⟨-, -, hLabels⟩ := hLabelled note 5 hNames (by decide)
  have hStandard : (note.fields.map fun field => LabelPolicy.standard.label field.name field.name) =
      ["Title (was: Title)", "Poet (was: Poet)", "Line (was: Line)"] := by decide +kernel
  exact ⟨hChecked, hNames, hSame (by decide), (hLabels (by decide)).trans hStandard⟩

end NoteType
end NoteForm
