import NoteForm.Proofs.Files.Keeping
import NoteForm.Proofs.Records

/-! How deep a saved state may be. Saving puts up with any depth and loading does not, so a state can
be lost to its own file. -/
namespace NoteForm.Files

/-- A state that is too deep makes the whole container too deep. -/
theorem lt_depth_of_deep_state {saved : SavedState Json} {written : Json}
    (hWritten : saved.WrittenAs written) {levels : Nat}
    (hDeep : ∃ state ∈ saved.states, levels < state.depth) : levels + 3 < written.depth := by
  obtain ⟨state, hState, hDepth⟩ := hDeep
  apply Nat.not_le.1
  intro hShallow
  exact Nat.not_le.2 hDepth (hWritten.depth_le_iff.1 hShallow state hState)

/-- The depth at which saved states are lost. Whether a container can be saved does not depend on
what is in it, and its file holds its text. The container is read back from there if no state in it
is more than 124 levels deep. With a deeper state loading fails, and the empty container that takes
its place brings no rows. -/
theorem saved_states_depth_limit {saved : SavedState Json}
    (hStates : ∀ state ∈ saved.states, state.Ordered ∧ state.isIntegral = true) {written : Json}
    (hWritten : saved.WrittenAs written) (disk : Disk) (path : Path) :
    (∀ other : Json, (save disk path written).result = (save disk path other).result) ∧
      ((save disk path written).result = .ok () →
        let after := (save disk path written).disk
        after.readText path = .ok (Stored.text written) ∧
        ((∀ state ∈ saved.states, state.depth ≤ 124) → load after path = .ok saved) ∧
        ((∃ state ∈ saved.states, 124 < state.depth) →
          (load after path : Except Failure (SavedState Json)) = .error (.json .tooDeep) ∧
          (loadOrDefault after path : SavedState Json) = .empty ∧
          (loadOrDefault after path : SavedState Json).container.capture = .error .ids)) := by
  have hReads : Json.Decoder.Reads Stored.decode written saved :=
    hWritten.reads fun state hState => Json.reads_of_ordered (hStates state hState).1
  have hIntegral : written.isIntegral = true :=
    hWritten.isIntegral_iff.2 fun state hState => (hStates state hState).2
  refine ⟨result_save_eq disk path written, fun hSave => ⟨readText_save hSave, ?_, ?_⟩⟩
  · intro hShallow
    -- The container itself takes up three of the levels.
    exact load_save_of_depth_le hReads hIntegral hSave (hWritten.depth_le_iff.2 hShallow)
  · intro hDeep
    have hLoad := load_save_of_lt_depth hReads hIntegral hSave
      (lt_depth_of_deep_state hWritten hDeep)
    have hEmpty : (loadOrDefault (save disk path written).disk path : SavedState Json) = .empty := by
      rw [loadOrDefault, hLoad]
      rfl
    exact ⟨hLoad, hEmpty, by rw [hEmpty]; rfl⟩

/-- Lists in one another, the given number of them. -/
def nested : Nat → Json
  | 0 => .null
  | levels + 1 => .array [nested levels]

theorem nested_wellFormed (levels : Nat) :
    (nested levels).Ordered ∧ (nested levels).isIntegral = true := by
  induction levels with
  | zero => exact ⟨trivial, rfl⟩
  | succ levels ih => exact ⟨⟨ih.1, trivial⟩, Json.areIntegralItems_iff.2 (by simp [ih.2])⟩

@[simp] theorem depth_nested (levels : Nat) : (nested levels).depth = levels := by
  induction levels with
  | zero => rfl
  | succ levels ih => simp [nested, Json.depth, Json.depthOfItems, ih]

/-- The container is read back with 124 lists in one another and lost with 125. -/
theorem saved_states_depth_limit_nested :
    let container (levels : Nat) : SavedState Json := .ofRows [(1, nested levels)]
    let path : Path := ⟨"form/rows.json"⟩
    let after (levels : Nat) : Disk :=
      (save Disk.empty path (Stored.encode (container levels))).disk
    load (after 124) path = .ok (container 124) ∧
      (load (after 125) path : Except Failure (SavedState Json)) = .error (.json .tooDeep) ∧
      (loadOrDefault (after 125) path : SavedState Json) = .empty := by
  intro container path after
  have hNested (levels : Nat) : ∀ state ∈ (container levels).states, state = nested levels := by
    intro state hState
    exact List.mem_singleton.1 hState
  have hLimit (levels : Nat) := saved_states_depth_limit
    (fun state hState => hNested levels state hState ▸ nested_wellFormed levels)
    (SavedState.writtenAs_encode (container levels)) Disk.empty path
  have hSave (levels : Nat) :
      (save Disk.empty path (Stored.encode (container levels))).result = .ok () :=
    ((hLimit levels).1 .null).trans (by decide)
  obtain ⟨-, hShallow, -⟩ := (hLimit 124).2 (hSave 124)
  obtain ⟨-, -, hDeep⟩ := (hLimit 125).2 (hSave 125)
  obtain ⟨hLoad, hEmpty, -⟩ := hDeep ⟨nested 125, List.mem_singleton_self _, by simp⟩
  refine ⟨hShallow fun state hState => Nat.le_of_eq ?_, hLoad, hEmpty⟩
  rw [hNested 124 state hState, depth_nested]

end NoteForm.Files
