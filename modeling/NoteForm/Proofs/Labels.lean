import NoteForm.Proofs.LinksWithin

/-! How far the label policy reaches. It decides what carried fields are called and nothing else: two
editors with different policies show the same contents in the same places, and even the names of all
rows that take over no old field. -/
namespace NoteForm

namespace SlotLinks

/-- A slot takes over an old field exactly if a link from an old field ends there. -/
theorem exists_carried?_iff (links : SlotLinks) (old : List NoteField) (slot : Slot) :
    (∃ field, links.carried? old slot = some field) ↔ links.Supplies old.length slot.toNat := by
  rw [supplies_iff]
  constructor
  · rintro ⟨field, hField⟩
    obtain ⟨source, hFeeding, hOld⟩ := Option.bind_eq_some_iff.1 hField
    exact ⟨slot, source, rfl, hFeeding, (List.getElem?_eq_some_iff.1 hOld).1⟩
  · rintro ⟨same, source, hSlot, hFeeding, hInside⟩
    obtain rfl : same = slot := UInt64.toNat_inj.1 hSlot
    exact ⟨old[source.toNat], Option.bind_eq_some_iff.2
      ⟨source, hFeeding, List.getElem?_eq_getElem hInside⟩⟩

end SlotLinks

namespace Move

/-- The names that a label at this position can be made from: the one declared for the slot there, and
the one of the old field that the slot takes over. -/
def NamesAt (move : Move) (old : List NoteField) (position : Nat) (newName oldName : String) :
    Prop :=
  ∃ entry ∈ move.target.entries, entry.slot.toNat = position ∧ entry.name = newName ∧
    ∃ source field, IsLeast (move.links.sources entry.slot) source ∧
      old[source.toNat]? = some field ∧ field.name = oldName

/-- Each row to which an old field is linked has its name from the two names there, made in this way. -/
def LabelsRows (move : Move) (old : List NoteField) (label : String → String → String)
    (rows : List Row) : Prop :=
  ∀ position row, rows[position]? = some row → move.links.Supplies old.length position →
    ∃ newName oldName, move.NamesAt old position newName oldName ∧ row.name = label newName oldName

/-- A field that takes nothing over is the same under every policy. -/
theorem getElem?_fields_of_not_supplied (move : Move) {old : List NoteField} {position : Nat}
    (h : ¬ move.links.Supplies old.length position) (first second : LabelPolicy) :
    (move.fields first old)[position]? = (move.fields second old)[position]? := by
  by_cases hPosition : position < move.target.size
  · obtain ⟨entry, hEntry, rfl⟩ := FieldIndex.exists_entry_of_lt move.checked hPosition
    have hNothing : move.links.carried? old entry.slot = none := by
      rw [Option.eq_none_iff_forall_ne_some]
      intro field hField
      exact h ((move.links.exists_carried?_iff old entry.slot).1 ⟨field, hField⟩)
    rw [move.getElem?_fields first old hEntry, move.getElem?_fields second old hEntry,
      carriedField_of_not_carried hNothing, carriedField_of_not_carried hNothing]
  · have hFirst := move.length_fields_eq_size first old
    have hSecond := move.length_fields_eq_size second old
    rw [List.getElem?_eq_none (by omega), List.getElem?_eq_none (by omega)]

/-- All rows that take over an old field are named alike: the number of old fields decides for all of
them whether the old names are used. -/
theorem labelsRows_ofFields (move : Move) (policy : LabelPolicy) (old : List NoteField) :
    move.LabelsRows old
      (fun newName oldName => if policy.namesOldFields old.length then
        policy.label newName oldName else newName)
      (Row.ofFields (move.fields policy old)) := by
  intro position row hRow hSupplied
  simp only [Row.getElem?_ofFields, Option.map_eq_some_iff] at hRow
  obtain ⟨field, hField, rfl⟩ := hRow
  have hPosition : position < move.target.size := by
    rw [← move.length_fields_eq_size policy old]
    exact (List.getElem?_eq_some_iff.1 hField).1
  obtain ⟨entry, hEntry, rfl⟩ := FieldIndex.exists_entry_of_lt move.checked hPosition
  obtain ⟨taken, hTaken⟩ := (move.links.exists_carried?_iff old entry.slot).2 hSupplied
  obtain ⟨source, hSource, hOld⟩ := (move.links.carried?_eq_some_iff old entry.slot taken).1 hTaken
  refine ⟨entry.name, taken.name,
    ⟨entry, hEntry, rfl, rfl, source, taken, hSource, hOld, rfl⟩, ?_⟩
  rw [move.getElem?_fields policy old hEntry, carriedField_of_carried hTaken,
    Option.some.injEq] at hField
  exact hField ▸ rfl

end Move

/-- What rows show besides their names is what the fields hold, in their order. -/
theorem Row.map_ofFields (fields : List NoteField) :
    (Row.ofFields fields).map (fun row => (row.content, row.position)) =
      (fields.map (·.value)).zipIdx := by
  rw [Row.ofFields, List.map_map, List.zipIdx_map]
  rfl

/-- The values to be shown do not depend on the policy, whatever the occasion is. -/
theorem Rebuild.map_value_fields (rebuild : Rebuild) (first second : LabelPolicy)
    (current : List NoteField) :
    (rebuild.fields first current).map (·.value) =
      (rebuild.fields second current).map (·.value) := by
  cases hMove : rebuild.move? with
  | none => simp only [fields, hMove]
  | some move =>
      simp only [fields, hMove]
      rw [move.map_value_fields first, move.map_value_fields second]

namespace Editor

/-- Two editors with any policies, whatever rows they hold, are asked for the rows of one rebuild of one
note. Both show the same contents in the same positions. Names differ at most where a move brings an old
field, and there each editor has made all names from the new name and the old one by its template, or
else uses all the new names as they are. -/
theorem policy_reaches_labels_only {S S' : Type} (first : Editor S) (second : Editor S')
    (rebuild : Rebuild) (fields : List NoteField) :
    let rows := first.rows rebuild fields
    let others := second.rows rebuild fields
    rows.map (fun row => (row.content, row.position)) =
        others.map (fun row => (row.content, row.position)) ∧
      (∀ position, (∀ move, rebuild = .noteMoved move →
          ¬ move.links.Supplies fields.length position) →
        rows[position]? = others[position]?) ∧
      ∀ move, rebuild = .noteMoved move →
        (first.policy.minOldFields.toNat < fields.length →
          move.LabelsRows fields first.policy.label rows) ∧
        (fields.length ≤ first.policy.minOldFields.toNat →
          move.LabelsRows fields (fun newName _ => newName) rows) := by
  intro rows others
  refine ⟨?_, fun position hUntouched => ?_, ?_⟩
  · simp only [rows, others, Editor.rows, Row.map_ofFields]
    rw [rebuild.map_value_fields first.policy second.policy]
  · simp only [rows, others, Editor.rows, Row.getElem?_ofFields]
    cases rebuild with
    | noteMoved move =>
        have hFields := move.getElem?_fields_of_not_supplied (hUntouched move rfl)
          first.policy second.policy
        exact congrArg (Option.map _) hFields
    | _ => rfl
  · rintro move rfl
    have hLabels := move.labelsRows_ofFields first.policy fields
    simp only [LabelPolicy.namesOldFields, decide_eq_true_eq] at hLabels
    constructor
    · intro hNamed
      simp only [if_pos hNamed] at hLabels
      exact hLabels
    · intro hPlain
      simp only [if_neg (Nat.not_lt.2 hPlain)] at hLabels
      exact hLabels

/-- One editor has rows to bring back and names the old fields, the other one does neither. -/
theorem policy_reaches_labels_only_partlyDangling :
    let first : Editor String := ⟨some [], ⟨0, "\x7bnew\x7d/\x7bold\x7d"⟩⟩
    let second : Editor Nat := .new .standard
    let old : List NoteField := [⟨"A", "a"⟩, ⟨"B", "b"⟩]
    let rows := first.rows (.noteMoved Move.partlyDangling) old
    let others := second.rows (.noteMoved Move.partlyDangling) old
    rows = [⟨"Title/B", "b", 0⟩, ⟨"Poet", "", 1⟩, ⟨"Line", "", 2⟩] ∧
      others.map (fun row => (row.content, row.position)) = [("b", 0), ("", 1), ("", 2)] ∧
      rows[1]? = others[1]? ∧ Move.partlyDangling.LabelsRows old first.policy.label rows ∧
      Move.partlyDangling.LabelsRows old (fun newName _ => newName) others := by
  intro first second old rows others
  have hRows : rows = [⟨"Title/B", "b", 0⟩, ⟨"Poet", "", 1⟩, ⟨"Line", "", 2⟩] := by
    decide +kernel
  have hUnsupplied : ∀ move, Rebuild.noteMoved Move.partlyDangling = .noteMoved move →
      ¬ move.links.Supplies old.length 1 := by
    rintro _ ⟨⟩
    decide
  obtain ⟨hContents, hNames, hFirst⟩ :=
    policy_reaches_labels_only first second (.noteMoved Move.partlyDangling) old
  obtain ⟨-, -, hSecond⟩ :=
    policy_reaches_labels_only second first (.noteMoved Move.partlyDangling) old
  refine ⟨hRows, ?_, hNames 1 hUnsupplied, (hFirst _ rfl).1 (by decide),
    (hSecond _ rfl).2 (by decide)⟩
  exact hContents.symm.trans (congrArg _ hRows)

end Editor
end NoteForm
