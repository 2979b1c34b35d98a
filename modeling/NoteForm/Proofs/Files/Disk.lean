import NoteForm.Files.Disk
import NoteForm.Proofs.Ascending
import NoteForm.Proofs.Except

/-! What is written to a file is found under its path. The way to the file leads over directories
only, so the file itself is not on it and writing does not change where it leads. -/
namespace NoteForm.Files.Disk

/-- What is put somewhere stands there, and elsewhere nothing changes. -/
@[simp] theorem entry?_put (disk : Disk) {place : List String} (h : place ≠ []) (entry : Entry)
    (other : List String) :
    Disk.entry? (disk.put place entry) other =
      if place = other then some entry else disk.entry? other := by
  simp only [ entry?, put, Ascending.find?_put, List.isEmpty_iff]
  split
  · rename_i hRoot
    rw [if_neg (hRoot ▸ h)]
  · by_cases hSame : place = other <;> simp [hSame]

/-- What is removed is gone, and elsewhere nothing changes. -/
@[simp]
theorem entry?_remove (disk : Disk) {place : List String} (h : place ≠ []) (other : List String) :
    Disk.entry? (disk.remove place) other =
      if place = other then none else disk.entry? other := by
  simp only [ entry?, remove, List.isEmpty_iff, List.find?_filter]
  split
  · rename_i hRoot
    rw [if_neg (hRoot ▸ h)]
  · split
    · rename_i hSame
      simp [hSame]
    · rename_i hOther
      congr 2
      funext entry
      grind

/-- The root is always a directory. -/
theorem ne_nil_of_not_directory {disk : Disk} {place : List String}
    (h : disk.entry? place ≠ some .directory) : place ≠ [] := by
  rintro rfl
  exact h rfl

@[simp] theorem follow_nil_eq_ok_iff {disk : Disk} {place target : List String} {entry : Entry} :
    disk.follow place [] = .ok (target, entry) ↔
      place = target ∧ disk.entry? place = some entry := by
  cases hEntry : disk.entry? place <;> simp [follow, hEntry]

theorem follow_cons {disk : Disk} {place next : List String} {step : String}
    (hDirectory : disk.entry? place = some .directory) (hStep : stepFrom place step = .ok next)
    (rest : List String) : disk.follow place (step :: rest) = disk.follow next rest := by
  simp only [follow, hDirectory, hStep, bind, Except.bind]

/-- A step is only taken from a directory. -/
theorem follow_cons_eq_ok_iff {disk : Disk} {place : List String} {step : String}
    {rest : List String} {found : List String × Entry} :
    disk.follow place (step :: rest) = .ok found ↔ disk.entry? place = some .directory ∧
      ∃ next, stepFrom place step = .ok next ∧ disk.follow next rest = .ok found := by
  constructor
  · intro h
    rw [follow] at h
    split at h
    · rename_i hDirectory
      obtain ⟨next, hStep, hNext⟩ := exists_of_bind_eq_ok h
      exact ⟨hDirectory, next, hStep, hNext⟩
    · cases h
    · cases h
  · rintro ⟨hDirectory, next, hStep, h⟩
    rw [follow_cons hDirectory hStep, h]

/-- A way in two parts: from where the first one leads the second one goes on. -/
theorem follow_append {disk : Disk} {start middle : List String} {entry : Entry}
    {front : List String} (h : disk.follow start front = .ok (middle, entry))
    (rest : List String) : disk.follow start (front ++ rest) = disk.follow middle rest := by
  induction front generalizing start with
  | nil =>
      obtain ⟨rfl, -⟩ := follow_nil_eq_ok_iff.1 h
      rfl
  | cons step front ih =>
      obtain ⟨hDirectory, next, hStep, hNext⟩ := follow_cons_eq_ok_iff.1 h
      rw [List.cons_append, follow_cons hDirectory hStep, ih hNext]

/-- Where a way leads there is what it was found to lead to. -/
theorem entry?_of_follow {disk : Disk} {start target : List String} {entry : Entry}
    {steps : List String} (h : disk.follow start steps = .ok (target, entry)) :
    disk.entry? target = some entry := by
  have hEnd := follow_append h []
  rw [List.append_nil, h] at hEnd
  exact (follow_nil_eq_ok_iff.1 hEnd.symm).2

/-- A way stays as it is as long as the directories on it do and the same stands at its end. -/
theorem follow_kept {before after : Disk}
    (hDirectories : ∀ other, before.entry? other = some .directory →
      after.entry? other = some .directory)
    {start target : List String} {entry : Entry} (hEnd : after.entry? target = some entry)
    {steps : List String} (h : before.follow start steps = .ok (target, entry)) :
    after.follow start steps = .ok (target, entry) := by
  induction steps generalizing start with
  | nil =>
      obtain ⟨rfl, -⟩ := follow_nil_eq_ok_iff.1 h
      exact follow_nil_eq_ok_iff.2 ⟨rfl, hEnd⟩
  | cons step rest ih =>
      obtain ⟨hDirectory, next, hStep, hNext⟩ := follow_cons_eq_ok_iff.1 h
      exact follow_cons_eq_ok_iff.2 ⟨hDirectories _ hDirectory, next, hStep, ih hNext⟩

/-- Writing where no directory is leaves the directories as they are. -/
theorem entry?_put_of_directory {disk : Disk} {place : List String}
    (hFile : disk.entry? place ≠ some .directory) (entry : Entry) {other : List String}
    (hDirectory : disk.entry? other = some .directory) :
    Disk.entry? (disk.put place entry) other = some .directory := by
  have hOther : place ≠ other := by
    rintro rfl
    exact hFile hDirectory
  simp [ne_nil_of_not_directory hFile, hOther, hDirectory]

/-- What is found under a path, taken apart. A path with a slash at its end leads to no file. -/
theorem lookUp_eq_ok_iff {disk : Disk} {path : Path} {place : List String} {entry : Entry} :
    disk.lookUp path = .ok (place, entry) ↔
      usable path = .ok () ∧ disk.follow [] path.steps = .ok (place, entry) ∧
        ((∃ content, entry = .file content) → path.endsInSlash = false) := by
  constructor
  · intro h
    obtain ⟨⟨⟩, hUsable, h⟩ := exists_of_bind_eq_ok h
    refine ⟨hUsable, ?_⟩
    split at h
    · rename_i found content hFound
      split at h
      · cases h
      · rename_i hSlash
        cases h
        exact ⟨hFound, fun _ => by simpa using hSlash⟩
    · rename_i hNoFile
      refine ⟨h, ?_⟩
      rintro ⟨content, rfl⟩
      exact (hNoFile place content h).elim
  · rintro ⟨hUsable, hFound, hSlash⟩
    simp only [lookUp, hUsable, hFound, bind, Except.bind]
    cases entry with
    | directory => rfl
    | file content => simp [hSlash ⟨content, rfl⟩]

@[simp] theorem find?_eq_some_iff {disk : Disk} {path : Path} {found : List String × Entry} :
    disk.find? path = some found ↔ disk.lookUp path = .ok found := by
  unfold find?
  cases disk.lookUp path <;> simp [Except.toOption]

/-- A new file gets a name in a directory that is there, and takes the place of no directory. -/
structure WritesTo (disk : Disk) (path : Path) (place : List String) : Prop where
  usable : usable path = .ok ()
  toFile : path.endsInSlash = false
  notDirectory : disk.entry? place ≠ some .directory
  way : ∃ directory front last, path.steps = front ++ [last] ∧
    disk.follow [] front = .ok (directory, .directory) ∧ stepFrom directory last = .ok place

theorem writesTo_of_placeToWrite {disk : Disk} {path : Path} {place : List String}
    (h : disk.placeToWrite path = .ok place) : disk.WritesTo path place := by
  obtain ⟨⟨⟩, hUsable, h⟩ := exists_of_bind_eq_ok h
  obtain ⟨⟨directory, entry⟩, hFollow, h⟩ := exists_of_bind_eq_ok h
  simp only at h
  split at h
  · cases h
  · cases h
  · rename_i last hLast
    split at h
    · cases h
    · rename_i hName
      obtain ⟨target, hStep, h⟩ := exists_of_bind_eq_ok h
      split at h
      · cases h
      · rename_i hPlace
        obtain rfl := Except.ok.inj h
        have hSteps : path.steps = path.steps.dropLast ++ [last] := by
          rw [List.dropLast_append_getLast? last hLast]
        refine ⟨hUsable, ?_, ?_, directory, _, last, hSteps, hFollow, hStep⟩
        · rw [not_or] at hName
          simpa using hName.1
        · intro hDirectory
          exact hPlace (by rw [isDirectory, hDirectory])

/-- A file that was written is what its path leads to. -/
theorem lookUp_of_write {disk after : Disk} {path : Path} {content : ByteArray}
    (h : disk.write path content = .ok after) :
    ∃ place, after.lookUp path = .ok (place, .file content) := by
  rw [write] at h
  obtain ⟨place, hPlace, rfl⟩ := exists_of_map_eq_ok h
  have hWrites := writesTo_of_placeToWrite hPlace
  obtain ⟨directory, front, last, hSteps, hFront, hLast⟩ := hWrites.way
  have hKept : (disk.put place (.file content)).follow [] front = .ok (directory, .directory) :=
    follow_kept (fun _ => entry?_put_of_directory hWrites.notDirectory (.file content))
      (entry?_put_of_directory hWrites.notDirectory _ (entry?_of_follow hFront)) hFront
  have hFound : (disk.put place (.file content)).follow [] path.steps =
      .ok (place, .file content) := by
    rw [hSteps, follow_append hKept, follow_cons (entry?_of_follow hKept) hLast]
    simp [ne_nil_of_not_directory hWrites.notDirectory]
  exact ⟨place, lookUp_eq_ok_iff.2 ⟨hWrites.usable, hFound, fun _ => hWrites.toFile⟩⟩

end NoteForm.Files.Disk
