import NoteForm.Files.Path

/-! Paths made of plain names, taken from a directory. Each name is one step down, whatever the path
of the directory looks like. -/
namespace NoteForm.Files

/-- A name of a file or directory that leads down by one step. -/
structure IsName (name : String) : Prop where
  nonempty : name ≠ ""
  slashless : '/' ∉ name.toList
  not_here : name ≠ "."
  not_up : name ≠ ".."

instance (name : String) : Decidable (IsName name) :=
  decidable_of_iff (name ≠ "" ∧ '/' ∉ name.toList ∧ name ≠ "." ∧ name ≠ "..")
    ⟨fun ⟨h₁, h₂, h₃, h₄⟩ => ⟨h₁, h₂, h₃, h₄⟩, fun ⟨h₁, h₂, h₃, h₄⟩ => ⟨h₁, h₂, h₃, h₄⟩⟩

/-- A way down over plain names, at least one of them. -/
@[ext]
structure PlainPath where
  names : List String
  nonempty : names ≠ []
  plain : ∀ name ∈ names, IsName name

/-- The path of a way down from a directory. -/
def Path.below (home : Path) (path : PlainPath) : Path := path.names.foldl Path.join home

namespace Path

/-- A path below a directory is the path of the directory, a slash if it needs one, and the name. -/
theorem join_eq (home : Path) {name : String} (h : IsName name) :
    home.join name =
      if home.needsSlash then ⟨home.text ++ "/" ++ name⟩ else ⟨home.text ++ name⟩ := by
  have hRelative : (Path.mk name).isAbsolute = false := by
    simp only [isAbsolute, decide_eq_false_iff_not]
    intro hHead
    exact h.slashless (List.mem_of_head? hHead)
  rw [join, hRelative]
  rfl

/-- A plain name is one step. -/
theorem filter_divideAtSlashes {name : String} (h : IsName name) :
    (divideAtSlashes name.toList).filter (!·.isEmpty) = [name.toList] := by
  rw [divideAtSlashes_of_not_mem h.slashless]
  simpa using h.nonempty

/-- A plain name leads one step further. -/
@[simp] theorem steps_join (home : Path) {name : String} (h : IsName name) :
    (home.join name).steps = home.steps ++ [name] := by
  rw [join_eq home h]
  split
  · simp [steps, divideAtSlashes_append, filter_divideAtSlashes h]
  · rename_i hSlash
    by_cases hText : home.text = ""
    · simp [steps, hText, divideAtSlashes, filter_divideAtSlashes h]
    · have hEnd : home.endsInSlash = true := by simpa [needsSlash, hText] using hSlash
      obtain ⟨front, hFront⟩ : ∃ front, home.text.toList = front ++ ['/'] := by
        simpa [endsInSlash, List.getLast?_eq_some_iff] using hEnd
      simp [steps, hFront, divideAtSlashes, divideAtSlashes_append, filter_divideAtSlashes h]

theorem steps_foldl_join (home : Path) {names : List String} (h : ∀ name ∈ names, IsName name) :
    (names.foldl join home).steps = home.steps ++ names := by
  induction names generalizing home with
  | nil => simp
  | cons name rest ih =>
      rw [List.forall_mem_cons] at h
      simp [ih (home.join name) h.2, h.1]

/-- A way down leads over its names, one after the other. -/
@[simp] theorem steps_below (home : Path) (path : PlainPath) :
    (home.below path).steps = home.steps ++ path.names :=
  steps_foldl_join home path.plain

end Path
end NoteForm.Files
