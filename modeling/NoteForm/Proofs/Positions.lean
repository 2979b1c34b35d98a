import NoteForm.Proofs.Capture
import NoteForm.Proofs.CarryOver
import NoteForm.Proofs.Waiting

/-! Lines are numbered by where they stand in the list. In a move to a checked note type this
number is also the slot of the field, since every place of the new form is filled. -/
namespace NoteForm

namespace Move

/-- No entry of a checked target is left out. -/
theorem fields_eq_map (move : Move) (policy : LabelPolicy) (old : List NoteField) :
    move.fields policy old = move.target.bySlot.map (carriedField policy move.links old) := by
  rw [fields, FieldIndex.carryOver_eq, List.filter_eq_self.2]
  intro entry hEntry
  exact decide_eq_true (FieldIndex.slot_lt_of_mem_bySlot move.checked hEntry)

/-- A moved note has as many fields as its new type declares. -/
@[simp] theorem length_fields (move : Move) (policy : LabelPolicy) (old : List NoteField) :
    (move.fields policy old).length = move.target.declared := by
  rw [fields_eq_map, List.length_map, FieldIndex.length_bySlot_of_check move.checked,
    (move.target.check_eq_ok_iff.1 move.checked).1]

/-- The field for an entry stands where the slot of the entry is. -/
theorem getElem?_fields (move : Move) (policy : LabelPolicy) (old : List NoteField)
    {entry : FieldDefinition} (h : entry ∈ move.target.entries) :
    (move.fields policy old)[entry.slot.toNat]? =
      some (carriedField policy move.links old entry) := by
  rw [fields_eq_map, List.getElem?_map, FieldIndex.getElem?_bySlot_of_check move.checked h,
    Option.map_some]

/-- Nothing is reported as skipped for want of a slot. -/
theorem not_slotSkipped_mem_events (move : Move) (old : List NoteField) (name : String)
    (slot : Slot) : .slotSkipped name slot ∉ move.events old := by
  intro hMem
  obtain ⟨entry, hEntry, hEvent⟩ := List.mem_filterMap.1 hMem
  have hInside := FieldIndex.slot_lt_of_mem_bySlot move.checked hEntry
  rw [carryEvent?, if_neg (by omega)] at hEvent
  obtain ⟨source, -, hSource⟩ := Option.bind_eq_some_iff.1 hEvent
  split at hSource <;> simp at hSource

/-- What a move to an index is made of. -/
theorem target_and_links_of_ofIndex {target : FieldIndex} {links : SlotLinks} {move : Move}
    (h : ofIndex target links = .ok move) : move.target = target ∧ move.links = links := by
  unfold ofIndex at h
  split at h
  · cases h
    exact ⟨rfl, rfl⟩
  · cases h

theorem target_and_links_of_ofNoteType {target : NoteType} {links : SlotLinks} {move : Move}
    (h : ofNoteType target links = .ok move) : move.target = target.index ∧ move.links = links :=
  target_and_links_of_ofIndex h

/-- The definitions of the target of a move are the entries it carries fields to. -/
theorem entries_of_ofNoteType {target : NoteType} {links : SlotLinks} {move : Move}
    (h : ofNoteType target links = .ok move) : move.target.entries = target.fields := by
  obtain ⟨hTarget, -⟩ := target_and_links_of_ofNoteType h
  have hChecked := move.checked
  rw [hTarget] at hChecked ⊢
  exact FieldIndex.entries_index_of_check hChecked

end Move

@[simp] theorem Row.getElem?_ofFields (fields : List NoteField) (i : Nat) :
    (Row.ofFields fields)[i]? = fields[i]?.map fun field => ⟨field.name, field.value, i⟩ := by
  simp [ofFields, List.getElem?_map, List.getElem?_zipIdx, Option.map_map, Function.comp_def]

@[simp] theorem Row.length_ofFields (fields : List NoteField) :
    (Row.ofFields fields).length = fields.length := by
  simp [ofFields]

/-- Lines that are numbered by where they stand have the positions from zero up. -/
theorem Line.map_position_eq_range {S : Type} {lines : List (Line S)}
    (h : ∀ (i : Nat) (line : Line S), lines[i]? = some line → line.position = i) :
    lines.map Line.position = List.range lines.length := by
  apply List.ext_getElem (by simp)
  intro i hLines hRange
  rw [List.length_map] at hLines
  rw [List.getElem_map, List.getElem_range]
  exact h i lines[i] (List.getElem?_eq_getElem hLines)

/-- Each place of the form of a move's target has the line for the definition in that slot: there
are as many lines as declared fields, the declared slots are the positions of the lines, each of
them once, and no definition is reported as left out. -/
structure Move.FilledBy {S : Type} (move : Move) (policy : LabelPolicy) (old : List NoteField)
    (lines : List (Line S)) : Prop where
  length_eq : lines.length = move.target.declared
  slots : (move.target.entries.map (·.slot.toNat)).Perm (List.range lines.length)
  line : ∀ entry ∈ move.target.entries, ∃ row, CarriedRow policy move.links old entry row ∧
    lines[entry.slot.toNat]? = some (.computed ⟨row.name, row.value, entry.slot.toNat⟩)
  not_skipped : ∀ name slot, .slotSkipped name slot ∉ move.events old

namespace Editor

variable {S : Type}

/-- Lines that are brought back have the positions from zero up. -/
@[simp] theorem map_position_restore (captured : List (CapturedRow S)) :
    (restore captured).map Line.position = List.range (restore captured).length := by
  apply Line.map_position_eq_range
  intro i line hLine
  rw [getElem?_restore, Option.map_eq_some_iff] at hLine
  obtain ⟨row, -, rfl⟩ := hLine
  rfl

@[simp] theorem length_restore (captured : List (CapturedRow S)) :
    (restore captured).length = captured.length := by
  simp [restore]

/-- The row at a place of a computed form is for the field at the same place. -/
@[simp] theorem getElem?_rows (editor : Editor S) (rebuild : Rebuild) (fields : List NoteField)
    (i : Nat) :
    (editor.rows rebuild fields)[i]? = (rebuild.fields editor.policy fields)[i]?.map fun field =>
      ⟨field.name, field.value, i⟩ := by
  simp [rows]

@[simp] theorem length_rows (editor : Editor S) (rebuild : Rebuild) (fields : List NoteField) :
    (editor.rows rebuild fields).length = (rebuild.fields editor.policy fields).length := by
  simp [rows]

/-- The lines of a computed form have the positions from zero up. -/
theorem map_position_computed (editor : Editor S) (rebuild : Rebuild) (fields : List NoteField) :
    ((editor.rows rebuild fields).map (Line.computed (S := S))).map Line.position =
      List.range ((editor.rows rebuild fields).map (Line.computed (S := S))).length := by
  apply Line.map_position_eq_range
  intro i line hLine
  simp only [List.getElem?_map, getElem?_rows, Option.map_map, Option.map_eq_some_iff] at hLine
  obtain ⟨field, -, rfl⟩ := hLine
  rfl

/-- A computed form after a move is filled. -/
theorem filledBy_computed (editor : Editor S) (move : Move) (fields : List NoteField) :
    move.FilledBy editor.policy fields
      ((editor.rows (.noteMoved move) fields).map (Line.computed (S := S))) := by
  have hLength : ((editor.rows (.noteMoved move) fields).map (Line.computed (S := S))).length =
      move.target.declared := by
    simp [Rebuild.fields, Rebuild.move?]
  refine ⟨hLength, ?_, fun entry hEntry => ?_, move.not_slotSkipped_mem_events fields⟩
  · obtain ⟨hDeclared, -, hNodup⟩ := move.target.check_eq_ok_iff.1 move.checked
    rw [hLength, hDeclared, ← FieldIndex.slots_bySlot_of_check move.checked]
    exact (FieldIndex.bySlot_perm hNodup).symm.map _
  · refine ⟨_, carriedRow_carriedField editor.policy move.links fields entry, ?_⟩
    simp [Rebuild.fields, Rebuild.move?, move.getElem?_fields editor.policy fields hEntry]

/-- At every point of every session of a new editor, the lines of a load have the positions from
zero up. There are as many as captured ids if rows are brought back, as many as fields of the note
if they are computed without a move, and as many as the target of a move declares; the line of each
declared field then stands where its slot is. -/
theorem load_positions (policy : LabelPolicy) (history : List (Request S)) (rebuild : Rebuild)
    (fields : List NoteField) :
    let editor := ((new policy).run history).2
    let lines := (editor.load rebuild fields).1
    lines.map Line.position = List.range lines.length ∧
      (∀ captured, editor.replayed? rebuild = some captured → ∃ container ids,
        .receive (some container) ∈ history ∧ container.ids = some ids ∧
          captured.map (·.id) = ids ∧ lines.length = ids.length) ∧
      (editor.replayed? rebuild = none → rebuild.move? = none → lines.length = fields.length) ∧
      (∀ move, rebuild = .noteMoved move → move.FilledBy policy fields lines) ∧
      (∀ target links move, Move.ofNoteType target links = .ok move →
        move.target.declared = target.fields.length ∧ move.target.entries = target.fields ∧
          move.links = links) := by
  intro editor lines
  have hPolicy : editor.policy = policy := policy_run (new policy) history
  have hRestored (captured) (h : editor.replayed? rebuild = some captured) :
      lines = restore captured := by simp only [lines, load_of_replayed h]
  have hComputed (h : editor.replayed? rebuild = none) :
      lines = (editor.rows rebuild fields).map .computed := by
    simp only [lines, load_of_not_replayed h]
  refine ⟨?_, ?_, ?_, ?_, ?_⟩
  · cases hReplayed : editor.replayed? rebuild with
    | some captured =>
        rw [hRestored captured hReplayed]
        exact map_position_restore captured
    | none =>
        rw [hComputed hReplayed]
        exact editor.map_position_computed rebuild fields
  · intro captured hReplayed
    obtain ⟨-, hWaiting⟩ := (replayed_run_iff policy history rebuild captured).1 hReplayed
    obtain ⟨before, container, after, hHistory, hCapture, -⟩ := hWaiting
    obtain ⟨ids, stateOf, hIds, -, hCaptured⟩ := Container.capture_eq_ok_iff.1 hCapture
    have hMap : captured.map (·.id) = ids := by simp [hCaptured]
    refine ⟨container, ids, by simp [hHistory], hIds, hMap, ?_⟩
    simp [hRestored captured hReplayed, ← hMap]
  · intro hReplayed hStill
    simp [hComputed hReplayed, Rebuild.fields, hStill]
  · rintro move rfl
    rw [hComputed rfl, ← hPolicy]
    exact editor.filledBy_computed move fields
  · intro target links move hMove
    obtain ⟨hTarget, hLinks⟩ := Move.target_and_links_of_ofNoteType hMove
    exact ⟨by rw [hTarget]; rfl, Move.entries_of_ofNoteType hMove, hLinks⟩

/-- A note type that declares its fields against their slots. -/
def swapped : NoteType := ⟨0, "Swapped", [⟨"Back", 1, false⟩, ⟨"Front", 0, true⟩]⟩

theorem load_positions_swapped :
    ∃ move, Move.ofNoteType swapped (.ofList [⟨1, 1⟩, ⟨7, 0⟩]) = .ok move ∧
      (((new .standard).run [.takePending]).2.load (S := String) (.noteMoved move)
        [⟨"A", "a"⟩, ⟨"B", "b"⟩]).1.length = 2 ∧
      ∃ row, CarriedRow .standard (.ofList [⟨1, 1⟩, ⟨7, 0⟩]) [⟨"A", "a"⟩, ⟨"B", "b"⟩]
          ⟨"Back", 1, false⟩ row ∧
        (((new .standard).run [.takePending]).2.load (S := String) (.noteMoved move)
          [⟨"A", "a"⟩, ⟨"B", "b"⟩]).1[1]? = some (.computed ⟨row.name, row.value, 1⟩) := by
  have hMove : Move.ofNoteType swapped (.ofList [⟨1, 1⟩, ⟨7, 0⟩]) =
      .ok ⟨swapped.index, .ofList [⟨1, 1⟩, ⟨7, 0⟩], by decide⟩ := rfl
  obtain ⟨-, -, -, hMoved, hTargets⟩ := load_positions (S := String) .standard [.takePending]
    (.noteMoved ⟨swapped.index, .ofList [⟨1, 1⟩, ⟨7, 0⟩], by decide⟩) [⟨"A", "a"⟩, ⟨"B", "b"⟩]
  obtain ⟨hDeclared, hEntries, -⟩ := hTargets _ _ _ hMove
  have hFilled := hMoved _ rfl
  refine ⟨_, hMove, hFilled.length_eq.trans hDeclared, hFilled.line ⟨"Back", 1, false⟩ ?_⟩
  rw [hEntries]
  decide

end Editor
end NoteForm
