/-! Taking computations that can fail apart: one that succeeds succeeds in each of its steps. -/
namespace NoteForm

variable {ε α β : Type} {result : Except ε α} {b : β}

theorem exists_of_map_eq_ok {f : α → β} (h : f <$> result = .ok b) :
    ∃ a, result = .ok a ∧ f a = b := by
  cases result with
  | error fault => cases h
  | ok a => exact ⟨a, rfl, Except.ok.inj h⟩

/-- If two steps in a row succeed, the first does, and the second does with what the first gives. -/
theorem exists_of_bind_eq_ok {f : α → Except ε β} (h : result >>= f = .ok b) :
    ∃ a, result = .ok a ∧ f a = .ok b := by
  cases result with
  | error fault => cases h
  | ok a => exact ⟨a, rfl, h⟩

end NoteForm
