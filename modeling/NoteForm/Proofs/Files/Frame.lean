import Mathlib.Data.Set.Insert
import NoteForm.Proofs.Files.Archive
import NoteForm.Proofs.Files.Path

/-! What the operations on files leave alone. Directories are made on the way to a file and never
removed, and no regular file is changed but the one that the path leads to. -/
namespace NoteForm.Files

namespace Disk

/-- The content of the regular file at a place. -/
def file? (disk : Disk) (place : List String) : Option ByteArray :=
  match disk.entry? place with
  | some (.file content) => some content
  | _ => none

/-- There is a regular file exactly where an entry says so. -/
@[simp] theorem file?_eq_some_iff {disk : Disk} {place : List String} {content : ByteArray} :
    disk.file? place = some content ↔ disk.entry? place = some (.file content) := by
  unfold file?
  split
  · rename_i held hFile
    simp [hFile]
  · rename_i hNoFile
    simpa using hNoFile content

theorem file?_of_entry?_eq {before after : Disk} {place : List String}
    (h : after.entry? place = before.entry? place) : after.file? place = before.file? place := by
  rw [file?, h, file?]

/-- What two states of a disk have in common if only these places may have been touched: directories
remain, and every other place has the same regular file or still has none. -/
structure Frame (touched : Set (List String)) (before after : Disk) : Prop where
  directories : ∀ place, before.entry? place = some .directory →
    after.entry? place = some .directory
  files : ∀ place ∉ touched, after.file? place = before.file? place

namespace Frame

variable {touched : Set (List String)} {before middle after : Disk}

theorem refl (touched : Set (List String)) (disk : Disk) : Frame touched disk disk :=
  ⟨fun _ h => h, fun _ _ => rfl⟩

theorem trans (first : Frame touched before middle) (second : Frame touched middle after) :
    Frame touched before after where
  directories place h := second.directories place (first.directories place h)
  files place h := (second.files place h).trans (first.files place h)

theorem mono {more : Set (List String)} (hMore : touched ⊆ more)
    (h : Frame touched before after) : Frame more before after where
  directories := h.directories
  files place hPlace := h.files place fun hTouched => hPlace (hMore hTouched)

/-- The ways to directories stay. -/
theorem follow_directory (h : Frame touched before after) {start target : List String}
    {steps : List String} (hFound : before.follow start steps = .ok (target, .directory)) :
    after.follow start steps = .ok (target, .directory) :=
  follow_kept h.directories (h.directories target (entry?_of_follow hFound)) hFound

/-- A file that is not touched is found as before. -/
theorem lookUp_file (h : Frame touched before after) {path : Path} {place : List String}
    {content : ByteArray} (hPlace : place ∉ touched)
    (hFound : before.lookUp path = .ok (place, .file content)) :
    after.lookUp path = .ok (place, .file content) := by
  obtain ⟨hUsable, hFollow, hSlash⟩ := lookUp_eq_ok_iff.1 hFound
  have hEnd : after.entry? place = some (.file content) := by
    rw [← file?_eq_some_iff, h.files place hPlace, file?_eq_some_iff]
    exact entry?_of_follow hFollow
  exact lookUp_eq_ok_iff.2 ⟨hUsable, follow_kept h.directories hEnd hFollow, hSlash⟩

end Frame

/-- A file that is written where no directory is touches its own place only. -/
theorem frame_put_file {disk : Disk} {place : List String}
    (h : disk.entry? place ≠ some .directory) (content : ByteArray) :
    Frame {place} disk (disk.put place (.file content)) where
  directories _ hDirectory := entry?_put_of_directory h _ hDirectory
  files other hOther := by
    apply file?_of_entry?_eq
    have hApart : place ≠ other := Ne.symm hOther
    simp [ne_nil_of_not_directory h, hApart]

/-- A new directory touches no file at all. -/
theorem frame_put_directory {disk : Disk} {place : List String} (h : disk.entry? place = none) :
    Frame ∅ disk (disk.put place .directory) := by
  have hPlace : disk.entry? place ≠ some .directory := by simp [h]
  refine ⟨fun _ hDirectory => entry?_put_of_directory hPlace _ hDirectory, fun other _ => ?_⟩
  have hRoot := ne_nil_of_not_directory hPlace
  by_cases hSame : place = other
  · subst hSame
    simp [file?, hRoot, h]
  · apply file?_of_entry?_eq
    simp [hRoot, hSame]

theorem frame_remove {disk : Disk} {place : List String} {content : ByteArray}
    (h : disk.entry? place = some (.file content)) : Frame {place} disk (disk.remove place) := by
  have hPlace : disk.entry? place ≠ some .directory := by simp [h]
  have hRoot := ne_nil_of_not_directory hPlace
  constructor
  · intro other hDirectory
    have hOther : place ≠ other := by
      rintro rfl
      exact hPlace hDirectory
    simp [hRoot, hOther, hDirectory]
  · intro other hOther
    have hApart : place ≠ other := Ne.symm hOther
    apply file?_of_entry?_eq
    simp [hRoot, hApart]

theorem file?_remove {disk : Disk} {place : List String} {content : ByteArray}
    (h : disk.entry? place = some (.file content)) : (disk.remove place).file? place = none := by
  have hPlace : disk.entry? place ≠ some .directory := by simp [h]
  simp [file?, ne_nil_of_not_directory hPlace]

/-- Directories are only made where nothing is, even if the way turns out to be blocked. -/
theorem frame_makeWay (disk : Disk) (place names : List String) :
    Frame ∅ disk (disk.makeWay place names).1 := by
  induction names generalizing disk place with
  | nil => exact .refl ∅ disk
  | cons name rest ih =>
      rw [makeWay]
      split
      · exact .refl ∅ disk
      · split
        · exact ih _ _
        · exact .refl ∅ disk
        · rename_i hNothing
          exact (frame_put_directory hNothing).trans (ih _ _)

/-- Making directories touches no file, wherever the path leads. -/
theorem frame_makeDirectories (disk : Disk) (path : Path) :
    Frame ∅ disk (disk.makeDirectories path).1 := by
  unfold makeDirectories
  split
  · exact .refl ∅ disk
  · split
    · exact .refl ∅ disk
    · exact frame_makeWay disk [] path.names

theorem eq_of_stepFrom {name : String} (h : IsName name) {place next : List String}
    (hStep : stepFrom place name = .ok next) : next = place ++ [name] := by
  rw [stepFrom, if_neg h.not_here, if_neg h.not_up] at hStep
  split at hStep
  · cases hStep
  · exact (Except.ok.inj hStep).symm

/-- Plain names lead straight down. -/
theorem eq_of_follow_names {disk : Disk} {start target names : List String} {entry : Entry}
    (h : ∀ name ∈ names, IsName name) (hFound : disk.follow start names = .ok (target, entry)) :
    target = start ++ names := by
  induction names generalizing start with
  | nil =>
      obtain ⟨rfl, -⟩ := follow_nil_eq_ok_iff.1 hFound
      rw [List.append_nil]
  | cons name rest ih =>
      rw [List.forall_mem_cons] at h
      obtain ⟨-, next, hStep, hNext⟩ := follow_cons_eq_ok_iff.1 hFound
      rw [ih h.2 hNext, eq_of_stepFrom h.1 hStep, List.append_assoc, List.singleton_append]

variable {disk : Disk} {home : Path} {place : List String}
  (hHome : disk.follow [] home.steps = .ok (place, .directory))

include hHome

/-- A path below a directory leads to a place below it. -/
theorem eq_of_lookUp_below {path : PlainPath} {target : List String} {entry : Entry}
    (h : disk.lookUp (home.below path) = .ok (target, entry)) : target = place ++ path.names := by
  obtain ⟨-, hFollow, -⟩ := lookUp_eq_ok_iff.1 h
  rw [Path.steps_below, follow_append hHome] at hFollow
  exact eq_of_follow_names path.plain hFollow

/-- A file is written where the path below the directory leads, and no directory is there. -/
theorem eq_of_placeToWrite_below {path : PlainPath} {target : List String}
    (h : disk.placeToWrite (home.below path) = .ok target) :
    target = place ++ path.names ∧ disk.entry? target ≠ some .directory := by
  have hWrites := writesTo_of_placeToWrite h
  obtain ⟨directory, front, last, hSteps, hFront, hLast⟩ := hWrites.way
  obtain ⟨names, name, hNames⟩ := (List.eq_nil_or_concat path.names).resolve_left path.nonempty
  rw [List.concat_eq_append] at hNames
  have hPlain := path.plain
  rw [hNames, List.forall_mem_append] at hPlain
  rw [Path.steps_below, hNames, ← List.append_assoc] at hSteps
  obtain ⟨rfl, hName⟩ := List.append_inj' hSteps rfl
  obtain rfl : name = last := by simpa using hName
  rw [follow_append hHome] at hFront
  refine ⟨?_, hWrites.notDirectory⟩
  rw [eq_of_stepFrom (hPlain.2 name (by simp)) hLast, eq_of_follow_names hPlain.1 hFront, hNames,
    List.append_assoc]

end Disk

open Disk

variable {α : Type} [Stored α] {disk : Disk}

/-- A failed save leaves every regular file as it is, though directories may have been made. -/
theorem frame_save_of_error {path : Path} {value : α} {failure : Failure}
    (h : (save disk path value).result = .error failure) :
    Frame ∅ disk (save disk path value).disk := by
  have hMade := frame_makeDirectories disk path.directory
  revert h
  unfold save
  split
  · rename_i hDirectories
    rw [hDirectories] at hMade
    exact fun _ => hMade
  · rename_i hDirectories
    rw [hDirectories] at hMade
    split
    · exact fun _ => hMade
    · rintro ⟨⟩

variable {home : Path} {place : List String}
  (hHome : disk.follow [] home.steps = .ok (place, .directory))

include hHome

/-- A save touches the file that its path leads to and no other. -/
theorem frame_save (path : PlainPath) (value : α) :
    Frame {place ++ path.names} disk (save disk (home.below path) value).disk := by
  have hMade := frame_makeDirectories disk (home.below path).directory
  unfold save
  split
  · rename_i hDirectories
    rw [hDirectories] at hMade
    exact hMade.mono (Set.empty_subset _)
  · rename_i made hDirectories
    rw [hDirectories] at hMade
    split
    · exact hMade.mono (Set.empty_subset _)
    · rename_i hWrite
      rw [write] at hWrite
      obtain ⟨target, hTarget, rfl⟩ := exists_of_map_eq_ok hWrite
      obtain ⟨rfl, hNoDirectory⟩ :=
        eq_of_placeToWrite_below (hMade.follow_directory hHome) hTarget
      exact (hMade.mono (Set.empty_subset _)).trans (frame_put_file hNoDirectory _)

/-- A deletion touches the file that its path leads to and no other. -/
theorem frame_delete (path : PlainPath) :
    Frame {place ++ path.names} disk (delete disk (home.below path)).disk := by
  obtain ⟨-, -, hDisk⟩ | ⟨-, hDisk⟩ | ⟨target, content, hFound, -, hDisk⟩ :=
    delete_cases disk (home.below path)
  · rw [hDisk]
    exact .refl _ disk
  · rw [hDisk]
    exact .refl _ disk
  · obtain rfl := eq_of_lookUp_below hHome hFound
    rw [hDisk]
    exact frame_remove (entry?_of_follow (lookUp_eq_ok_iff.1 hFound).2.1)

end NoteForm.Files
