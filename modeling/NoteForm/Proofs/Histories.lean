/-! Events that count until later ones undo them. -/
namespace NoteForm

universe u

variable {α : Type u} {begins stays : α → Prop}

/-- Something begins in a history and only events follow that let it stay. Seen from the last event:
either it begins there, or it began before and the last event lets it stay. -/
theorem exists_begins_concat_iff {history : List α} {last : α} :
    (∃ before event after, history ++ [last] = before ++ event :: after ∧ begins event ∧
        ∀ later ∈ after, stays later) ↔
      begins last ∨ ((∃ before event after, history = before ++ event :: after ∧ begins event ∧
        ∀ later ∈ after, stays later) ∧ stays last) := by
  constructor
  · rintro ⟨before, event, after, hSplit, hBegins, hAfter⟩
    rcases List.eq_nil_or_concat after with rfl | ⟨earlier, latest, rfl⟩
    · obtain ⟨-, hLast⟩ := List.append_inj' hSplit rfl
      obtain rfl : last = event := by simpa using hLast
      exact .inl hBegins
    · rw [List.concat_eq_append, ← List.cons_append, ← List.append_assoc] at hSplit
      obtain ⟨hHistory, hLast⟩ := List.append_inj' hSplit rfl
      obtain rfl : last = latest := by simpa using hLast
      rw [List.concat_eq_append, List.forall_mem_append, List.forall_mem_singleton] at hAfter
      exact .inr ⟨⟨before, event, earlier, hHistory, hBegins, hAfter.1⟩, hAfter.2⟩
  · rintro (hBegins | ⟨⟨before, event, after, rfl, hBegins, hAfter⟩, hStays⟩)
    · exact ⟨history, last, [], rfl, hBegins, by simp⟩
    · refine ⟨before, event, after ++ [last], by simp, hBegins, ?_⟩
      rw [List.forall_mem_append, List.forall_mem_singleton]
      exact ⟨hAfter, hStays⟩

end NoteForm
