import Mathlib.Data.List.Forall2
import NoteForm.Move
import NoteForm.Proofs.FieldIndex
import NoteForm.Proofs.SlotLinks

/-! What a moved note shows. The rows are described by the links as a set and by the entries of the
index in whatever order they stand; the target need not be a valid note type. -/
namespace NoteForm

/-- The row a definition is to have: the value of the lowest old field linked to its slot, if there
is such a field, and otherwise its plain name with nothing in it. A lowest link that starts behind
the last old field counts as none. -/
structure CarriedRow (policy : LabelPolicy) (links : SlotLinks) (old : List NoteField)
    (definition : FieldDefinition) (row : NoteField) : Prop where
  carried : ∀ source field, IsLeast (links.sources definition.slot) source →
    old[source.toNat]? = some field →
      row.value = field.value ∧
        row.name = if policy.minOldFields.toNat < old.length then
          policy.label definition.name field.name else definition.name
  empty : (∀ source, IsLeast (links.sources definition.slot) source →
    old.length ≤ source.toNat) → row = ⟨definition.name, ""⟩

namespace SlotLinks

/-- The field brought to a slot is the one in the lowest linked old slot. -/
theorem carried?_eq_some_iff (links : SlotLinks) (old : List NoteField) (slot : Slot)
    (field : NoteField) :
    links.carried? old slot = some field ↔
      ∃ source, IsLeast (links.sources slot) source ∧ old[source.toNat]? = some field := by
  simp [carried?, Option.bind_eq_some_iff, oldSlot?_eq_some_iff]

end SlotLinks

theorem carriedField_of_carried {links : SlotLinks} {old : List NoteField}
    {definition : FieldDefinition} {field : NoteField}
    (h : links.carried? old definition.slot = some field) (policy : LabelPolicy) :
    carriedField policy links old definition =
      ⟨if policy.namesOldFields old.length then policy.label definition.name field.name
        else definition.name, field.value⟩ := by
  simp only [carriedField, h]

theorem carriedField_of_not_carried {links : SlotLinks} {old : List NoteField}
    {definition : FieldDefinition} (h : links.carried? old definition.slot = none)
    (policy : LabelPolicy) :
    carriedField policy links old definition = ⟨definition.name, ""⟩ := by
  simp only [carriedField, h]

/-- The field made for a definition is the row that the definition is to have. -/
theorem carriedRow_carriedField (policy : LabelPolicy) (links : SlotLinks) (old : List NoteField)
    (definition : FieldDefinition) :
    CarriedRow policy links old definition (carriedField policy links old definition) := by
  constructor
  · intro source field hSource hField
    have hCarried :=
      (links.carried?_eq_some_iff old definition.slot field).2 ⟨source, hSource, hField⟩
    rw [carriedField_of_carried hCarried]
    simp [LabelPolicy.namesOldFields]
  · intro hNothing
    refine carriedField_of_not_carried ?_ policy
    rw [Option.eq_none_iff_forall_ne_some]
    intro field hField
    obtain ⟨source, hSource, hOld⟩ :=
      (links.carried?_eq_some_iff old definition.slot field).1 hField
    obtain ⟨hInside, -⟩ := List.getElem?_eq_some_iff.1 hOld
    exact absurd (hNothing source hSource) (by omega)

/-- Where a slot behind the front is filled, the free slots are divided there. -/
theorem set_append_replicate {α : Type} (front : List (Option α)) (gap others : Nat) (value : α) :
    (front ++ List.replicate (gap + (1 + others)) none).set (front.length + gap) (some value) =
      front ++ List.replicate gap none ++ [some value] ++ List.replicate others none := by
  rw [List.set_append_right _ _ (Nat.le_add_right _ _), Nat.add_sub_cancel_left,
    List.replicate_add, List.set_append_right _ _ (by simp), List.length_replicate, Nat.sub_self,
    List.replicate_add]
  simp

/-- Entries in ascending slots fill the free slots from the front, where no later entry comes back to,
and those whose slot does not exist are left out. -/
theorem foldl_placeField (policy : LabelPolicy) (links : SlotLinks) (old : List NoteField)
    {entries : List FieldDefinition}
    (hAscending : entries.Pairwise fun first second => first.slot < second.slot)
    (front : List (Option NoteField)) (free : Nat)
    (hFront : ∀ entry ∈ entries, front.length ≤ entry.slot.toNat) :
    (entries.foldl (placeField policy links old) (front ++ List.replicate free none)).filterMap id =
      front.filterMap id ++
        (entries.filter fun entry => entry.slot.toNat < front.length + free).map
          (carriedField policy links old) := by
  induction entries generalizing front free with
  | nil => simp
  | cons entry rest ih =>
      obtain ⟨hEntry, hRest⟩ := List.pairwise_cons.1 hAscending
      obtain ⟨hSlot, hSlots⟩ := List.forall_mem_cons.1 hFront
      rw [List.foldl_cons, placeField]
      by_cases hThere : entry.slot.toNat < front.length + free
      · obtain ⟨gap, hGap⟩ := Nat.exists_eq_add_of_le hSlot
        obtain ⟨others, rfl⟩ : ∃ others, free = gap + (1 + others) :=
          ⟨free - (gap + 1), by omega⟩
        have hLater : ∀ later ∈ rest, entry.slot.toNat + 1 ≤ later.slot.toNat :=
          fun later hLater => UInt64.lt_iff_toNat_lt.1 (hEntry later hLater)
        rw [hGap] at hLater
        -- For the later entries the front reaches up to this field, empty slots included.
        rw [hGap, set_append_replicate, ih hRest _ others (by simpa [Nat.add_assoc] using hLater),
          List.filter_cons_of_pos (by simpa using hThere)]
        simp [Nat.add_assoc]
      · rw [List.set_eq_of_length_le (by simpa using hThere), ih hRest front free hSlots,
          List.filter_cons_of_neg (by simpa using hThere)]

namespace FieldIndex

/-- What the slots come to hold, without the slots: the fields of the entries that have one. -/
theorem carryOver_eq (index : FieldIndex) (links : SlotLinks) (policy : LabelPolicy)
    (old : List NoteField) :
    index.carryOver links policy old =
      (index.bySlot.filter fun entry => entry.slot.toNat < index.size).map
        (carriedField policy links old) := by
  simpa [carryOver] using foldl_placeField policy links old index.sorted_bySlot [] index.size
    fun _ _ => Nat.zero_le _

/-- Moving a note gives one row for each entry whose slot is below the number of entries, in
ascending slot order, and no other row; each row is the one its entry is to have. -/
theorem carryOver_rows (index : FieldIndex) (links : SlotLinks) (policy : LabelPolicy)
    (old : List NoteField) (h : index.SlotsApart) :
    ∃ placed : List FieldDefinition,
      placed.Pairwise (fun first second => first.slot < second.slot) ∧
      (∀ entry, entry ∈ placed ↔ entry ∈ index.entries ∧ entry.slot.toNat < index.size) ∧
      List.Forall₂ (CarriedRow policy links old) placed (index.carryOver links policy old) := by
  refine ⟨index.bySlot.filter fun entry => entry.slot.toNat < index.size, ?_, ?_, ?_⟩
  · exact index.sorted_bySlot.filter _
  · intro entry
    rw [List.mem_filter, (bySlot_perm h.nodup_slots).mem_iff, decide_eq_true_iff]
  · rw [carryOver_eq, List.forall₂_map_right_iff]
    exact List.forall₂_same.2 fun entry _ => carriedRow_carriedField policy links old entry

/-- An index that is no valid note type, since nothing can stand in slot 7. -/
def sparse : FieldIndex :=
  (NoteType.mk 0 "Sparse" [⟨"Front", 1, false⟩, ⟨"Extra", 7, false⟩, ⟨"Back", 0, false⟩]).index

/-- Two links compete for slot 0 and one starts behind the last old field. -/
def tangled : SlotLinks := .ofList [⟨2, 0⟩, ⟨0, 0⟩, ⟨9, 1⟩]

theorem carryOver_rows_sparse :
    sparse.SlotsApart ∧ ∃ placed : List FieldDefinition,
      (∀ entry, entry ∈ placed ↔ entry ∈ sparse.entries ∧ entry.slot.toNat < 3) ∧
      List.Forall₂ (CarriedRow .standard tangled [⟨"A", "a"⟩, ⟨"B", "b"⟩, ⟨"C", "c"⟩]) placed
        [⟨"Back (was: A)", "a"⟩, ⟨"Front", ""⟩] := by
  have hApart : sparse.SlotsApart := by decide
  obtain ⟨placed, -, hPlaced, hRows⟩ := carryOver_rows sparse tangled .standard
    [⟨"A", "a"⟩, ⟨"B", "b"⟩, ⟨"C", "c"⟩] hApart
  refine ⟨hApart, placed, hPlaced, ?_⟩
  have hCarried : sparse.carryOver tangled .standard [⟨"A", "a"⟩, ⟨"B", "b"⟩, ⟨"C", "c"⟩] =
      [⟨"Back (was: A)", "a"⟩, ⟨"Front", ""⟩] := by decide +kernel
  rwa [hCarried] at hRows

end FieldIndex
end NoteForm
