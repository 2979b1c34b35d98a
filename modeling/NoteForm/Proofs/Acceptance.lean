import Mathlib.Data.List.Dedup
import NoteForm.Move
import NoteForm.Proofs.FieldIndex

/-! Which note types can be the target of a move. The check of an index goes through entries in no
particular order, after repeated names have replaced each other, and never looks for a slot that is
left empty. It still accepts exactly the note types whose names all differ and whose slots are the
numbers below the number of definitions, each in use once. -/
namespace NoteForm

/-- Entering definitions adds their names to those that are there. -/
theorem FieldIndex.mem_names_foldl_enter (definitions entries : List FieldDefinition)
    (name : String) :
    name ∈ (definitions.foldl (fun held definition => enter definition held) entries).map (·.name) ↔
      name ∈ definitions.map (·.name) ∨ name ∈ entries.map (·.name) := by
  induction definitions generalizing entries with
  | nil => simp
  | cons definition rest ih =>
      rw [List.foldl_cons, ih, mem_names_enter, List.map_cons, List.mem_cons, or_assoc,
        or_left_comm]

/-- An index of a note type has the entries of `NoteType.index`, in whatever order. -/
structure FieldIndex.IsIndexOf (index : FieldIndex) (t : NoteType) : Prop where
  entries_perm : index.entries.Perm t.index.entries
  declared_eq : index.declared = t.index.declared

instance (index : FieldIndex) (t : NoteType) : Decidable (index.IsIndexOf t) :=
  decidable_of_iff (index.entries.Perm t.index.entries ∧ index.declared = t.index.declared)
    ⟨fun h => ⟨h.1, h.2⟩, fun h => ⟨h.entries_perm, h.declared_eq⟩⟩

namespace NoteType

/-- How many different names are declared. -/
def distinctNames (t : NoteType) : Nat := (t.fields.map (·.name)).dedup.length

/-- The declared names all differ, and the slots are the numbers below the number of definitions in
some order. -/
structure WellFormed (t : NoteType) : Prop where
  names : (t.fields.map (·.name)).Nodup
  slots : (t.fields.map (·.slot.toNat)).Perm (List.range t.fields.length)

theorem isIndexOf_index (t : NoteType) : t.index.IsIndexOf t := ⟨.refl _, rfl⟩

/-- The names of the entries are the declared names. -/
theorem mem_names_index (t : NoteType) (name : String) :
    name ∈ t.index.entries.map (·.name) ↔ name ∈ t.fields.map (·.name) := by
  have hEntered := FieldIndex.mem_names_foldl_enter t.fields [] name
  rwa [List.map_nil, or_iff_left List.not_mem_nil] at hEntered

/-- There is one entry for each different name. -/
@[simp] theorem size_index (t : NoteType) : t.index.size = t.distinctNames := by
  have hPerm : (t.index.entries.map (·.name)).Perm (t.fields.map (·.name)).dedup := by
    refine (List.perm_ext_iff_of_nodup t.index.distinct (List.nodup_dedup _)).2 fun name => ?_
    rw [t.mem_names_index, List.mem_dedup]
  rw [FieldIndex.size, distinctNames, ← hPerm.length_eq, List.length_map]

/-- There are as many different names as definitions exactly if no name is repeated. -/
theorem length_eq_distinctNames_iff (t : NoteType) :
    t.fields.length = t.distinctNames ↔ (t.fields.map (·.name)).Nodup := by
  constructor
  · intro hLength
    have hDedup : (t.fields.map (·.name)).dedup = t.fields.map (·.name) :=
      (List.dedup_sublist _).eq_of_length (by rw [List.length_map]; exact hLength.symm)
    exact List.dedup_eq_self.1 hDedup
  · intro hNames
    rw [distinctNames, hNames.dedup, List.length_map]

end NoteType

namespace FieldIndex.IsIndexOf

variable {index : FieldIndex} {t : NoteType}

theorem size_eq (h : index.IsIndexOf t) : index.size = t.distinctNames := by
  rw [← t.size_index, size, size, h.entries_perm.length_eq]

/-- Where names are not repeated, an index has the declared definitions. -/
theorem perm_fields (h : index.IsIndexOf t) (hNames : t.fields.length = t.distinctNames) :
    index.entries.Perm t.fields := by
  have hEntries : t.index.entries = t.fields :=
    entries_index_of_size (hNames.trans t.size_index.symm)
  exact hEntries ▸ h.entries_perm

/-- The check passes on the well-formed note types and on no other, in whatever order the entries
stand. -/
theorem check_eq_ok_iff (h : index.IsIndexOf t) : index.check = .ok () ↔ t.WellFormed := by
  have hDeclared : index.declared = t.fields.length := h.declared_eq
  rw [FieldIndex.check_eq_ok_iff, hDeclared, h.size_eq]
  constructor
  · rintro ⟨hNames, hRange, hNodup⟩
    have hFields := h.perm_fields hNames
    have hChecked : index.check = .ok () :=
      index.check_eq_ok_iff.2 ⟨by rw [hDeclared, h.size_eq, hNames], by rwa [h.size_eq], hNodup⟩
    refine ⟨t.length_eq_distinctNames_iff.1 hNames, ?_⟩
    rw [hNames, ← h.size_eq, ← slots_bySlot_of_check hChecked]
    exact ((bySlot_perm hNodup).trans hFields).symm.map _
  · rintro ⟨hNodup, hSlots⟩
    have hNames := t.length_eq_distinctNames_iff.2 hNodup
    have hFields := h.perm_fields hNames
    refine ⟨hNames, fun entry hEntry => ?_, ?_⟩
    · have hSlot := List.mem_map_of_mem (f := fun d : FieldDefinition => d.slot.toNat)
        (hFields.mem_iff.1 hEntry)
      rw [← hNames]
      simpa using hSlots.mem_iff.1 hSlot
    · have hNumbers : (index.entries.map (·.slot.toNat)).Nodup :=
        ((hFields.map _).trans hSlots).nodup_iff.2 List.nodup_range
      exact List.Nodup.of_map UInt64.toNat (by simpa [Function.comp_def] using hNumbers)

end FieldIndex.IsIndexOf

/-- A move to a target is possible as soon as the target passes the check, whatever the links are. -/
@[simp] theorem Move.exists_ofIndex_iff (target : FieldIndex) (links : SlotLinks) :
    (∃ move, ofIndex target links = .ok move) ↔ target.check = .ok () := by
  constructor
  · rintro ⟨move, hMove⟩
    unfold ofIndex at hMove
    split at hMove
    · assumption
    · cases hMove
  · intro hChecked
    refine ⟨⟨target, links, hChecked⟩, ?_⟩
    unfold ofIndex
    split
    · rfl
    · rename_i hFault
      rw [hChecked] at hFault
      cases hFault

namespace NoteType

/-- In whatever order the entries of an index stand, the check passes and a move over any links is
possible exactly if the note type is well-formed. The entries in slot order are then the declared
definitions, each of them once under its own name, and the slots of the entries are their positions. -/
theorem accepted_iff_wellFormed (t : NoteType) {index : FieldIndex} (h : index.IsIndexOf t)
    (links : SlotLinks) :
    (index.check = .ok () ↔ t.WellFormed) ∧
      ((∃ move, Move.ofIndex index links = .ok move) ↔ t.WellFormed) ∧
      (index.check = .ok () →
        index.bySlot.map (·.slot.toNat) = List.range t.fields.length ∧
          index.bySlot.Perm t.fields ∧ (index.bySlot.map (·.name)).Nodup) := by
  refine ⟨h.check_eq_ok_iff, ?_, fun hChecked => ?_⟩
  · rw [Move.exists_ofIndex_iff, h.check_eq_ok_iff]
  · obtain ⟨-, -, hNodup⟩ := index.check_eq_ok_iff.1 hChecked
    have hNames := (h.check_eq_ok_iff.1 hChecked).names
    have hLength := t.length_eq_distinctNames_iff.2 hNames
    have hPerm := (FieldIndex.bySlot_perm hNodup).trans (h.perm_fields hLength)
    refine ⟨?_, hPerm, (hPerm.map _).nodup_iff.2 hNames⟩
    rw [FieldIndex.slots_bySlot_of_check hChecked, h.size_eq, hLength]

/-- Declared against the order of the slots. -/
def upsideDown : NoteType := ⟨0, "Verse", [⟨"Line", 2, false⟩, ⟨"Title", 0, true⟩, ⟨"Poet", 1, false⟩]⟩

theorem accepted_iff_wellFormed_upsideDown :
    let index : FieldIndex :=
      ⟨[⟨"Poet", 1, false⟩, ⟨"Line", 2, false⟩, ⟨"Title", 0, true⟩], 3, by decide⟩
    index.IsIndexOf upsideDown ∧ index.check = .ok () ∧ upsideDown.WellFormed ∧
      index.bySlot.map (·.slot.toNat) = [0, 1, 2] ∧ index.bySlot.Perm upsideDown.fields := by
  intro index
  have hIndex : index.IsIndexOf upsideDown := by decide
  have hChecked : index.check = .ok () := by decide
  obtain ⟨hWellFormed, -, hEntries⟩ := accepted_iff_wellFormed upsideDown hIndex .empty
  obtain ⟨hSlots, hPerm, -⟩ := hEntries hChecked
  exact ⟨hIndex, hChecked, hWellFormed.1 hChecked, hSlots, hPerm⟩

end NoteType
end NoteForm
