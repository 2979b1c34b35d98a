import NoteForm.Proofs.Acceptance
import NoteForm.Proofs.Positions

/-! The order in which a note type declares its fields. The slots say where fields stand, so a note
type that passes the check means the same in whatever order its definitions are listed and in
whatever order an index keeps them. Of a note type that does not pass the same cannot be said: names
in the same slot stay in the order they were declared in, and of definitions of one name the last
counts. -/
namespace NoteForm

namespace FieldIndex.IsIndexOf

variable {index : FieldIndex} {t : NoteType}

/-- In slot order a checked index has the declared definitions. -/
theorem bySlot_perm_fields (h : index.IsIndexOf t) (hChecked : index.check = .ok ()) :
    index.bySlot.Perm t.fields := by
  obtain ⟨-, -, hNodup⟩ := index.check_eq_ok_iff.1 hChecked
  have hNames := t.length_eq_distinctNames_iff.2 (h.check_eq_ok_iff.1 hChecked).names
  exact (bySlot_perm hNodup).trans (h.perm_fields hNames)

/-- A checked index has an entry for each declared field. -/
theorem size_eq_length (h : index.IsIndexOf t) (hChecked : index.check = .ok ()) :
    index.size = t.fields.length :=
  (index.check_eq_ok_iff.1 hChecked).1.symm.trans h.declared_eq

/-- The definitions are brought into slot order twice, as a list and through the index. Once no two of
them share a slot, both ways lead to the same names. -/
theorem fieldNames_eq (h : index.IsIndexOf t) (hChecked : index.check = .ok ()) :
    t.fieldNames = index.bySlot.map (·.name) := by
  have hArranged : Ascending.arrange (·.slot) t.fields = index.bySlot :=
    Ascending.arrange_eq_of_perm index.sorted_bySlot (h.bySlot_perm_fields hChecked).symm
  rw [NoteType.fieldNames, hArranged]

end FieldIndex.IsIndexOf

namespace NoteType

variable {t reordered : NoteType}

/-- Being well formed is said of the definitions without their order. -/
theorem WellFormed.of_perm (h : t.WellFormed) (hFields : reordered.fields.Perm t.fields) :
    reordered.WellFormed where
  names := (hFields.map _).nodup_iff.2 h.names
  slots := by
    rw [hFields.length_eq]
    exact (hFields.map _).trans h.slots

theorem wellFormed_iff_of_perm (hFields : reordered.fields.Perm t.fields) :
    reordered.WellFormed ↔ t.WellFormed :=
  ⟨fun h => h.of_perm hFields.symm, fun h => h.of_perm hFields⟩

end NoteType

/-- What a move gives depends on its target through the entries in slot order alone. -/
theorem Move.fields_eq_of_bySlot {first second : Move}
    (hEntries : first.target.bySlot = second.target.bySlot) (hLinks : first.links = second.links)
    (policy : LabelPolicy) (old : List NoteField) :
    first.fields policy old = second.fields policy old := by
  rw [fields_eq_map, fields_eq_map, hEntries, hLinks]

namespace NoteType

variable {t reordered : NoteType}

/-- Two note types of one name declare the same definitions in different orders, and their indexes keep
the entries in any orders. Then a move to both or to neither is possible. If it is, both declare the
same names in slot order and have the same blank note and the same entries in slot order, and every
editor shows the same rows for both moves, whatever the links and the old note are. -/
theorem declaration_order_irrelevant (hName : reordered.name = t.name)
    (hFields : reordered.fields.Perm t.fields) {index other : FieldIndex}
    (hIndex : index.IsIndexOf t) (hOther : other.IsIndexOf reordered) (links : SlotLinks) :
    ((∃ move, Move.ofIndex index links = .ok move) ↔
        ∃ move, Move.ofIndex other links = .ok move) ∧
      ∀ first second, Move.ofIndex index links = .ok first →
        Move.ofIndex other links = .ok second →
          reordered.fieldNames = t.fieldNames ∧ Note.blank reordered = Note.blank t ∧
            other.bySlot = index.bySlot ∧
            ∀ {S : Type} (editor : Editor S) (fields : List NoteField),
              editor.rows (.noteMoved second) fields = editor.rows (.noteMoved first) fields := by
  have hAccepted : index.check = .ok () ↔ other.check = .ok () := by
    rw [hIndex.check_eq_ok_iff, hOther.check_eq_ok_iff, wellFormed_iff_of_perm hFields]
  refine ⟨?_, fun first second hFirst hSecond => ?_⟩
  · simp [hAccepted]
  have hChecked : index.check = .ok () := (Move.exists_ofIndex_iff index links).1 ⟨first, hFirst⟩
  have hOtherChecked : other.check = .ok () := hAccepted.1 hChecked
  have hSame : other.bySlot.Perm index.bySlot :=
    ((hOther.bySlot_perm_fields hOtherChecked).trans hFields).trans
      (hIndex.bySlot_perm_fields hChecked).symm
  have hEntries : other.bySlot = index.bySlot :=
    other.sorted_bySlot.eq_of_perm index.sorted_bySlot hSame
  have hNames : reordered.fieldNames = t.fieldNames := by
    rw [hOther.fieldNames_eq hOtherChecked, hIndex.fieldNames_eq hChecked, hEntries]
  refine ⟨hNames, ?_, hEntries, fun editor fields => ?_⟩
  · rw [Note.blank, Note.blank, hName, hNames]
  · obtain ⟨hTarget, hLinks⟩ := Move.target_and_links_of_ofIndex hFirst
    obtain ⟨hOtherTarget, hOtherLinks⟩ := Move.target_and_links_of_ofIndex hSecond
    refine congrArg Row.ofFields (Move.fields_eq_of_bySlot ?_ ?_ editor.policy fields)
    · rw [hTarget, hOtherTarget, hEntries]
    · rw [hLinks, hOtherLinks]

/-- The definitions of `upsideDown` in the order of their slots. -/
def upright : NoteType := ⟨0, "Verse", [⟨"Title", 0, true⟩, ⟨"Poet", 1, false⟩, ⟨"Line", 2, false⟩]⟩

theorem declaration_order_irrelevant_upright :
    let index : FieldIndex :=
      ⟨[⟨"Poet", 1, false⟩, ⟨"Line", 2, false⟩, ⟨"Title", 0, true⟩], 3, by decide⟩
    upright.name = upsideDown.name ∧ upright.fields.Perm upsideDown.fields ∧
      index.IsIndexOf upsideDown ∧ upright.index.IsIndexOf upright ∧
      upright.fieldNames = ["Title", "Poet", "Line"] ∧
      upright.fieldNames = upsideDown.fieldNames ∧ upright.index.bySlot = index.bySlot := by
  intro index
  have hName : upright.name = upsideDown.name := rfl
  have hFields : upright.fields.Perm upsideDown.fields := by decide
  have hIndex : index.IsIndexOf upsideDown := by decide
  have hFirst : Move.ofIndex index .empty = .ok ⟨index, .empty, by decide⟩ := rfl
  have hSecond : Move.ofIndex upright.index .empty = .ok ⟨upright.index, .empty, by decide⟩ := rfl
  obtain ⟨-, hBoth⟩ :=
    declaration_order_irrelevant hName hFields hIndex upright.isIndexOf_index .empty
  obtain ⟨hNames, -, hEntries, -⟩ := hBoth _ _ hFirst hSecond
  exact ⟨hName, hFields, hIndex, upright.isIndexOf_index, by decide, hNames, hEntries⟩

end NoteType
end NoteForm
