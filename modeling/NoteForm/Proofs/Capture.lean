import NoteForm.Capture

/-! What a capture takes out of a container. -/
namespace NoteForm

/-- A capture has one row for each id, in the order of the ids. -/
@[simp] theorem map_id_capture {S : Type} (ids : List Int32) (stateOf : Int32 → Option S) :
    (capture ids stateOf).map (·.id) = ids := by
  simp [capture, Function.comp_def]

namespace Container

/-- A container can be captured exactly if it has both parts. -/
theorem capture_eq_ok_iff {S : Type} {container : Container S} {captured : List (CapturedRow S)} :
    container.capture = .ok captured ↔ ∃ ids stateOf, container.ids = some ids ∧
      container.stateOf = some stateOf ∧ captured = NoteForm.capture ids stateOf := by
  obtain ⟨ids, stateOf⟩ := container
  cases ids <;> cases stateOf <;> simp [capture, eq_comm]

end Container
end NoteForm
