import NoteForm.Proofs.Container
import NoteForm.Proofs.Files.Keeping
import NoteForm.Proofs.Waiting

/-! Rows that are put into a container before a teardown come back after it, whether the container
is handed over in memory or kept in a file, and whatever the file is read as. -/
namespace NoteForm

open Files (save load Disk Path)

/-- A state that a file keeps as it is. Its objects are in order, as those of every value that is
kept are meant to be, none of its numbers is a double, and the three levels of the container fit
around it. -/
structure Json.Keepable (state : Json) : Prop where
  ordered : state.Ordered
  integral : state.isIntegral = true
  shallow : state.depth ≤ 124

/-- Whether a state is the one given last for an id. -/
def LastUnder {S : Type} (rows : List (Int32 × S)) (id : Int32) (state : S) : Prop :=
  ∃ before after, rows = before ++ (id, state) :: after ∧ ∀ later ∈ after, later.1 ≠ id

/-- Lines that bring rows back: one for each row, at its place and under its id, with the state
given last for that id. -/
structure BringsBack {S : Type} (rows : List (Int32 × S)) (lines : List (Line S)) : Prop where
  length : lines.length = rows.length
  line : ∀ i id state, rows[i]? = some (id, state) →
    ∃ last, LastUnder rows id last ∧ lines[i]? = some (Line.restored i id (some last))
  ownState : (rows.map Prod.fst).Nodup → ∀ i id state, rows[i]? = some (id, state) →
    lines[i]? = some (Line.restored i id (some state))

section

variable {S : Type} {rows : List (Int32 × S)}

theorem lastUnder_iff {id : Int32} {state : S} :
    LastUnder rows id state ↔ rows.reverse.find? (·.1 = id) = some (id, state) := by
  rw [Ascending.find?_reverse_eq_some_iff, and_iff_right rfl, LastUnder]

/-- An id that occurs has a last state. -/
theorem exists_lastUnder {id : Int32} {state : S} (h : (id, state) ∈ rows) :
    ∃ last, LastUnder rows id last := by
  cases hFound : rows.reverse.find? (·.1 = id) with
  | none =>
      have hOther := List.find?_eq_none.1 hFound (id, state) (List.mem_reverse.2 h)
      simp at hOther
  | some row =>
      obtain ⟨key, last⟩ := row
      obtain rfl : key = id := by simpa using List.find?_some hFound
      exact ⟨last, lastUnder_iff.2 hFound⟩

theorem LastUnder.mem {id : Int32} {state : S} (h : LastUnder rows id state) :
    (id, state) ∈ rows := by
  obtain ⟨before, after, rfl, -⟩ := h
  simp

namespace Views

/-- Of the rows with one id the last gives the view its state. -/
theorem find?_ofList {id : Int32} {state : S} (h : LastUnder rows id state) :
    (ofList rows).find? id = some state := by
  rw [find?, ofList, Ascending.find?_putAll, lastUnder_iff.1 h]
  rfl

/-- No state comes into the views that was not in the rows. -/
theorem mem_of_mem_states_ofList {state : S} (h : state ∈ (ofList rows).states) :
    ∃ row ∈ rows, row.2 = state := by
  obtain ⟨row, hRow, rfl⟩ := List.mem_map.1 h
  have hFound := List.mem_of_find?_eq_some (Ascending.mem_putAll_iff.1 hRow)
  exact ⟨row, List.mem_reverse.1 hFound, rfl⟩

end Views

/-- The rows of a container that was put together for them are brought back. -/
theorem bringsBack_restore (rows : List (Int32 × S)) :
    BringsBack rows (Editor.restore (capture (rows.map Prod.fst) (Views.ofList rows).find?)) := by
  have hLine : ∀ i id state last, rows[i]? = some (id, state) → LastUnder rows id last →
      (Editor.restore (capture (rows.map Prod.fst) (Views.ofList rows).find?))[i]? =
        some (Line.restored i id (some last)) := by
    intro i id state last hRow hLast
    simp [Editor.getElem?_restore, capture, hRow, Views.find?_ofList hLast]
  refine ⟨by simp [Editor.restore, capture], ?_, ?_⟩
  · intro i id state hRow
    obtain ⟨last, hLast⟩ := exists_lastUnder (List.mem_of_getElem? hRow)
    exact ⟨last, hLast, hLine i id state last hRow hLast⟩
  · intro hDistinct i id state hRow
    have hMem := List.mem_of_getElem? hRow
    obtain ⟨last, hLast⟩ := exists_lastUnder hMem
    obtain ⟨-, rfl⟩ := Prod.mk.inj (List.inj_on_of_nodup_map hDistinct hLast.mem hMem rfl)
    exact hLine i id last last hRow hLast

end

section

variable {saved : SavedState Json} {written : Json} {disk : Disk} {path : Path}
  (hStates : ∀ state ∈ saved.states, state.Keepable) (hWritten : saved.WrittenAs written)
  (hSave : (save disk path written).result = .ok ())

include hStates hWritten hSave

/-- A value that was saved in any of its forms is loaded as it was. -/
theorem load_written {α : Type} [Stored α] [Inhabited α] {value : α}
    (hReads : Json.Decoder.Reads Stored.decode written value) :
    load (save disk path written).disk path = .ok value := by
  have hIntegral : written.isIntegral = true :=
    hWritten.isIntegral_iff.2 fun state hState => (hStates state hState).integral
  have hDepth : written.depth ≤ Json.deepest :=
    hWritten.depth_le_iff.2 fun state hState => (hStates state hState).shallow
  exact Files.load_save_of_depth_le hReads hIntegral hSave hDepth

/-- A container is read from its file as it is. -/
theorem load_container : load (save disk path written).disk path = .ok saved :=
  load_written hStates hWritten hSave <|
    hWritten.reads fun state hState => Json.reads_of_ordered (hStates state hState).ordered

/-- Read as a mere value, it still has the ids and states of the container. -/
theorem load_value : ∃ value : Json, load (save disk path written).disk path = .ok value ∧
    value.container = saved.container :=
  ⟨written.arranged,
    load_written hStates hWritten hSave (Json.reads_decodeValue written),
    hWritten.container fun state hState => (hStates state hState).ordered⟩

end

/-- The rows of a form survive its teardown. They are put into a container, which is handed to the
editor as it is, or saved to a file and read back as a container or as a mere value. The next
initial load of any editor brings the same lines each time. Nothing fixes which of its forms the
container is saved in; saving the container itself is saving the one `Stored.encode` gives. -/
theorem rows_survive_teardown {rows : List (Int32 × Json)}
    (hStates : ∀ row ∈ rows, row.2.Keepable) {written : Json}
    (hWritten : (SavedState.ofRows rows).WrittenAs written) {disk : Disk} {path : Path}
    (hSave : (save disk path written).result = .ok ()) :
    ∃ (loaded : SavedState Json) (value : Json) (lines : List (Line Json)),
      load (save disk path written).disk path = .ok loaded ∧
      load (save disk path written).disk path = .ok value ∧
      BringsBack rows lines ∧
      ∀ container ∈ [(SavedState.ofRows rows).container, loaded.container, value.container],
        ∀ (editor : Editor Json) (fields : List NoteField),
          ((editor.receive (some container)).load .initial fields).1 = lines := by
  have hKeepable : ∀ state ∈ (SavedState.ofRows rows).states, state.Keepable := by
    intro state hState
    obtain ⟨row, hRow, rfl⟩ := Views.mem_of_mem_states_ofList hState
    exact hStates row hRow
  obtain ⟨value, hValue, hContainer⟩ := load_value hKeepable hWritten hSave
  refine ⟨SavedState.ofRows rows, value, _, load_container hKeepable hWritten hSave, hValue,
    bringsBack_restore rows, ?_⟩
  intro container hMem editor fields
  have hSame : container = (SavedState.ofRows rows).container := by
    simpa [hContainer] using hMem
  have hReplayed : (editor.receive (some (SavedState.ofRows rows).container)).replayed? .initial =
      some (capture (rows.map Prod.fst) (Views.ofList rows).find?) := rfl
  rw [hSame, Editor.load_of_replayed hReplayed]

/-- Rows with an id that occurs twice, a negative id, a state that is `null` and a text with
characters to escape. -/
def mixedRows : List (Int32 × Json) :=
  [(7, .null), (-5, .string "\"\\\n\x01"),
    (7, .object [("draft", .array [.bool true]), ("text", .string "é")])]

theorem keepable_mixedRows : ∀ row ∈ mixedRows, row.2.Keepable := by
  intro row hRow
  simp only [mixedRows, List.mem_cons, List.not_mem_nil, or_false] at hRow
  rcases hRow with rfl | rfl | rfl
  · exact ⟨trivial, rfl, by decide⟩
  · exact ⟨trivial, rfl, by decide⟩
  · refine ⟨?_, rfl, by decide⟩
    simp only [Json.Ordered, Json.OrderedMembers, Json.OrderedItems, Ascending.Sorted]
    decide

/-- The first row comes back with the state of the third one. -/
theorem rows_survive_teardown_mixed :
    ∃ (loaded : SavedState Json) (value : Json) (lines : List (Line Json)),
      lines[0]? = some (Line.restored 0 7
        (some (.object [("draft", .array [.bool true]), ("text", .string "é")]))) ∧
      ∀ container ∈ [(SavedState.ofRows mixedRows).container, loaded.container, value.container],
        ((Editor.receive (.new .standard) (some container)).load .initial []).1 = lines := by
  have hSave : (save Disk.empty ⟨"form/rows.json"⟩ (SavedState.ofRows mixedRows)).result =
      .ok () := by decide
  rw [← Files.save_encode] at hSave
  obtain ⟨loaded, value, lines, -, -, hLines, hSame⟩ := rows_survive_teardown keepable_mixedRows
    (SavedState.writtenAs_encode (SavedState.ofRows mixedRows)) hSave
  refine ⟨loaded, value, lines, ?_, fun container hMem => hSame container hMem (.new .standard) []⟩
  obtain ⟨last, hLast, hLine⟩ := hLines.line 0 7 .null rfl
  have hFound := lastUnder_iff.1 hLast
  obtain ⟨-, rfl⟩ : (7 : Int32) = 7 ∧ _ = last := by simpa [mixedRows] using hFound
  exact hLine

end NoteForm
