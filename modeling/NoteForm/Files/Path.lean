/-! Paths as they are written. The directory of a file is again a path as it is written, since the
length of the text counts; `names_directory` says where it leads. -/
namespace NoteForm.Files

structure Path where
  text : String
deriving DecidableEq, Repr

/-- Divide a text at each slash. -/
def divideAtSlashes : List Char → List (List Char)
  | [] => [[]]
  | c :: rest =>
      match c, divideAtSlashes rest with
      | '/', parts => [] :: parts
      | c, part :: parts => (c :: part) :: parts
      | c, [] => [[c]]

/-- Nothing between two slashes, or a dot alone, leads to where one is. -/
def staysInPlace (part : List Char) : Bool := part = [] ∨ part = ['.']

/-- Parts up to the last one that leads on. -/
def toLastStep (parts : List (List Char)) : List (List Char) :=
  (parts.reverse.dropWhile staysInPlace).reverse

theorem divideAtSlashes_ne_nil (text : List Char) : divideAtSlashes text ≠ [] := by
  cases text with
  | nil => simp [divideAtSlashes]
  | cons c rest =>
      unfold divideAtSlashes
      split <;> simp

/-- A slash ends a part. -/
@[simp]
theorem divideAtSlashes_slash (rest : List Char) :
    divideAtSlashes ('/' :: rest) = [] :: divideAtSlashes rest := rfl

/-- Any other character belongs to the first part. -/
theorem divideAtSlashes_cons_of_ne {c : Char} (h : c ≠ '/') (rest : List Char) :
    ∃ part parts, divideAtSlashes rest = part :: parts ∧
      divideAtSlashes (c :: rest) = (c :: part) :: parts := by
  obtain ⟨part, parts, hRest⟩ := List.exists_cons_of_ne_nil (divideAtSlashes_ne_nil rest)
  refine ⟨part, parts, hRest, ?_⟩
  unfold divideAtSlashes
  rw [hRest]
  split
  · exact absurd rfl h
  · rename_i hParts
    obtain ⟨rfl, rfl⟩ := List.cons.inj hParts
    rfl
  · rename_i hParts
    cases hParts

theorem not_mem_of_mem_divideAtSlashes {text : List Char} :
    ∀ part ∈ divideAtSlashes text, '/' ∉ part := by
  induction text with
  | nil => simp [divideAtSlashes]
  | cons c rest ih =>
      by_cases hSlash : c = '/'
      · subst hSlash
        exact List.forall_mem_cons.2 ⟨List.not_mem_nil, ih⟩
      · obtain ⟨first, parts, hRest, hText⟩ := divideAtSlashes_cons_of_ne hSlash rest
        rw [hRest, List.forall_mem_cons] at ih
        rw [hText, List.forall_mem_cons]
        refine ⟨fun hFound => ?_, ih.2⟩
        rcases List.mem_cons.1 hFound with hSame | hFound
        · exact hSlash hSame.symm
        · exact ih.1 hFound

/-- A slash divides a text into two that are divided on their own. -/
theorem divideAtSlashes_append (front rest : List Char) :
    divideAtSlashes (front ++ '/' :: rest) = divideAtSlashes front ++ divideAtSlashes rest := by
  induction front with
  | nil => rfl
  | cons c front ih =>
      by_cases hSlash : c = '/'
      · subst hSlash
        simp [ih]
      · obtain ⟨first, parts, hFront, hText⟩ := divideAtSlashes_cons_of_ne hSlash front
        obtain ⟨whole, others, hWhole, hWholeText⟩ :=
          divideAtSlashes_cons_of_ne hSlash (front ++ '/' :: rest)
        rw [ih, hFront, List.cons_append] at hWhole
        obtain ⟨rfl, rfl⟩ := List.cons.inj hWhole
        rw [List.cons_append, hWholeText, hText, List.cons_append]

theorem divideAtSlashes_of_not_mem {part : List Char} (h : '/' ∉ part) :
    divideAtSlashes part = [part] := by
  induction part with
  | nil => rfl
  | cons c part ih =>
      rw [List.mem_cons, not_or] at h
      obtain ⟨first, parts, hPart, hText⟩ := divideAtSlashes_cons_of_ne (Ne.symm h.1) part
      rw [ih h.2] at hPart
      obtain ⟨rfl, rfl⟩ := List.cons.inj hPart
      exact hText

/-- Dividing undoes joining. -/
theorem divideAtSlashes_intercalate {parts : List (List Char)} (hParts : parts ≠ [])
    (h : ∀ part ∈ parts, '/' ∉ part) : divideAtSlashes (['/'].intercalate parts) = parts := by
  induction parts with
  | nil => exact absurd rfl hParts
  | cons part rest ih =>
      obtain ⟨hPart, hRest⟩ := List.forall_mem_cons.1 h
      cases rest with
      | nil => simpa [List.intercalate] using divideAtSlashes_of_not_mem hPart
      | cons next rest =>
          rw [List.intercalate_cons_cons, List.append_assoc, List.singleton_append,
            divideAtSlashes_append, divideAtSlashes_of_not_mem hPart, ih (by simp) hRest,
            List.singleton_append]

/-- Only parts at the end are left out. -/
theorem toLastStep_initial (parts : List (List Char)) : toLastStep parts <+: parts := by
  rw [← List.reverse_suffix]
  simpa [toLastStep] using List.dropWhile_suffix _

/-- No part that leads on is left out. -/
theorem filter_toLastStep (parts : List (List Char)) :
    (toLastStep parts).filter (!staysInPlace ·) = parts.filter (!staysInPlace ·) := by
  have hBackwards (parts : List (List Char)) :
      (parts.dropWhile staysInPlace).filter (!staysInPlace ·) =
        parts.filter (!staysInPlace ·) := by
    induction parts with
    | nil => rfl
    | cons part rest ih =>
        by_cases hStays : staysInPlace part
        · simpa [hStays] using ih
        · simp [hStays]
  rw [toLastStep, List.filter_reverse, hBackwards, ← List.filter_reverse, List.reverse_reverse]

/-- Without the last part that is left, the last part that leads on is missing. -/
theorem filter_dropLast_toLastStep (parts : List (List Char)) :
    (toLastStep parts).dropLast.filter (!staysInPlace ·) =
      (parts.filter (!staysInPlace ·)).dropLast := by
  rw [← filter_toLastStep parts]
  unfold toLastStep
  generalize parts.reverse = backwards
  induction backwards with
  | nil => rfl
  | cons part rest ih =>
      by_cases hStays : staysInPlace part
      · simpa [hStays] using ih
      · simp [hStays, List.filter_append]

namespace Path

/-- The steps from the root down. Slashes in a row count as one. -/
def steps (path : Path) : List String :=
  ((divideAtSlashes path.text.toList).filter (!·.isEmpty)).map String.ofList

/-- A slash behind the last step says that it leads to a directory. -/
def endsInSlash (path : Path) : Bool := path.text.toList.getLast? = some '/'

def isAbsolute (path : Path) : Bool := path.text.toList.head? = some '/'

/-- The steps without those that stay in place, as they are counted when directories are made. -/
def names (path : Path) : List String := path.steps.filter (· ≠ ".")

/-- The directory of the file that a path leads to: the path as it is written, up to the step before
the last. -/
def directory (path : Path) : Path :=
  let parts := toLastStep (divideAtSlashes path.text.toList)
  ⟨String.ofList (['/'].intercalate (toLastStep parts.dropLast))⟩

/-- Whether a slash has to stand between the path and what is put behind it. -/
def needsSlash (path : Path) : Bool := path.text ≠ "" ∧ path.endsInSlash = false

/-- A path below a directory. An absolute path stands for itself. -/
def join (directory : Path) (name : String) : Path :=
  if (Path.mk name).isAbsolute then ⟨name⟩
  else if directory.needsSlash then ⟨directory.text ++ "/" ++ name⟩
  else ⟨directory.text ++ name⟩

/-- The names are the parts that lead on. -/
theorem names_eq (path : Path) :
    path.names = ((divideAtSlashes path.text.toList).filter (!staysInPlace ·)).map String.ofList := by
  simp only [names, steps, List.filter_map, List.filter_filter]
  congr 1
  apply List.filter_congr
  intro part _
  have hDot : decide (String.ofList part ≠ ".") = decide (part ≠ ['.']) :=
    decide_eq_decide.2 (not_congr String.ofList_inj)
  simp only [Function.comp_apply, hDot]
  cases part <;> simp [staysInPlace]

/-- The directory of a file is reached by all steps but the last. -/
theorem names_directory (path : Path) : path.directory.names = path.names.dropLast := by
  rw [names_eq, names_eq, ← List.map_dropLast, ← filter_dropLast_toLastStep,
    ← filter_toLastStep (List.dropLast _)]
  have hSlashless : ∀ part ∈ toLastStep (toLastStep (divideAtSlashes path.text.toList)).dropLast,
      '/' ∉ part := by
    intro part hPart
    have hStep := List.dropLast_subset _ ((toLastStep_initial _).subset hPart)
    exact not_mem_of_mem_divideAtSlashes part ((toLastStep_initial _).subset hStep)
  rw [directory, String.toList_ofList]
  generalize toLastStep (toLastStep (divideAtSlashes path.text.toList)).dropLast = parts
    at hSlashless ⊢
  cases parts with
  | nil => rfl
  | cons part rest => rw [divideAtSlashes_intercalate (by simp) hSlashless]

end Path
end NoteForm.Files
