import Mathlib.Data.List.Induction
import NoteForm.Proofs.Histories
import NoteForm.Proofs.Survival
import NoteForm.Proofs.Files.Frame

/-! Files as a store of values under paths. What a run of operations leaves behind can be read off
its operations: under each path there is the value that was last saved there and not deleted since. -/
namespace NoteForm.Files

/-- A type whose values are kept in files. -/
structure Kind where
  Value : Type
  stored : Stored Value
  inhabited : Inhabited Value

attribute [instance] Kind.stored Kind.inhabited

/-- An operation on the file under a path below some directory. -/
inductive Request where
  | save (path : PlainPath) (kind : Kind) (value : kind.Value)
  | load (path : PlainPath) (kind : Kind)
  | loadOrDefault (path : PlainPath) (kind : Kind)
  | delete (path : PlainPath)

namespace Request

def path : Request → PlainPath
  | save path .. => path
  | load path _ => path
  | loadOrDefault path _ => path
  | delete path => path

def isLoad : Request → Bool
  | load .. => true
  | loadOrDefault .. => true
  | _ => false

/-- How an operation ends. Of a value that is loaded it only counts whether it could be loaded. -/
def outcome (home : Path) (disk : Disk) : Request → Outcome
  | save path _ value => Files.save disk (home.below path) value
  | load path kind =>
      let found : Except Failure kind.Value := Files.load disk (home.below path)
      let read : Except Failure (Option kind.Value) := read? disk (home.below path)
      ⟨found.map fun _ => (), disk, readEvents (home.below path) read⟩
  | loadOrDefault path kind =>
      let read : Except Failure (Option kind.Value) := read? disk (home.below path)
      ⟨.ok (), disk, defaultEvents (home.below path) read⟩
  | delete path => Files.delete disk (home.below path)

@[simp] theorem outcome_save (home : Path) (disk : Disk) (path : PlainPath) (kind : Kind)
    (value : kind.Value) :
    (save path kind value).outcome home disk = Files.save disk (home.below path) value := rfl

@[simp] theorem outcome_delete (home : Path) (disk : Disk) (path : PlainPath) :
    (delete path).outcome home disk = Files.delete disk (home.below path) := rfl

end Request

/-- An operation of a run, with the disk it found and how it ended. -/
structure Step where
  before : Disk
  request : Request
  outcome : Outcome

/-- The operations of a run as they were carried out, and the disk they leave. -/
def run (home : Path) (disk : Disk) : List Request → List Step × Disk
  | [] => ([], disk)
  | request :: rest =>
      let outcome := request.outcome home disk
      let (steps, final) := run home outcome.disk rest
      (⟨disk, request, outcome⟩ :: steps, final)

/-- The value was written to the file under the path. -/
def Step.Saves (step : Step) (path : PlainPath) (kind : Kind) (value : kind.Value) : Prop :=
  step.outcome.result = .ok () ∧ step.request = .save path kind value

/-- The file under the path was written or removed. -/
def Step.Replaces (step : Step) (path : PlainPath) : Prop :=
  (∃ kind value, step.Saves path kind value) ∨
    (step.outcome.result = .ok () ∧ step.request = .delete path)

/-- The last successful save under a path stored this value, and no successful deletion has followed.
This speaks of the operations and their success alone and not of any disk. -/
def LastSaved (steps : List Step) (path : PlainPath) (kind : Kind) (value : kind.Value) : Prop :=
  ∃ before step after, steps = before ++ step :: after ∧ step.Saves path kind value ∧
    ∀ later ∈ after, ¬later.Replaces path

/-- The last operation either saves the value itself or leaves it there. -/
theorem lastSaved_concat_iff (steps : List Step) (step : Step) (path : PlainPath) (kind : Kind)
    (value : kind.Value) :
    LastSaved (steps ++ [step]) path kind value ↔
      step.Saves path kind value ∨ (LastSaved steps path kind value ∧ ¬step.Replaces path) :=
  exists_begins_concat_iff

/-- A run deals with its first operations as if no others followed. -/
theorem run_append (home : Path) (disk : Disk) (first second : List Request) :
    run home disk (first ++ second) =
      ((run home disk first).1 ++ (run home (run home disk first).2 second).1,
        (run home (run home disk first).2 second).2) := by
  induction first generalizing disk with
  | nil => rfl
  | cons request rest ih => simp [run, ih]

theorem run_concat (home : Path) (disk : Disk) (history : List Request) (request : Request) :
    run home disk (history ++ [request]) =
      let before := (run home disk history).2
      ((run home disk history).1 ++ [⟨before, request, request.outcome home before⟩],
        (request.outcome home before).disk) := by
  rw [run_append]
  rfl

/-- What the disk shows of the operations so far: the directory is where it was, each value that was
last saved is the file under its path, and under all other paths there is no file. -/
structure Tracks (home : Path) (place : List String) (steps : List Step) (disk : Disk) : Prop where
  way : disk.follow [] home.steps = .ok (place, .directory)
  saved : ∀ path kind value, LastSaved steps path kind value →
    disk.lookUp (home.below path) =
      .ok (place ++ path.names, .file (Stored.text value).toUTF8)
  free : ∀ path, (∀ kind value, ¬LastSaved steps path kind value) →
    disk.file? (place ++ path.names) = none

open Disk

variable {home : Path} {place : List String} {disk : Disk}

/-- No operation touches another file than the one under its path. -/
theorem frame_outcome (hHome : disk.follow [] home.steps = .ok (place, .directory))
    (request : Request) :
    Frame {place ++ request.path.names} disk (request.outcome home disk).disk := by
  cases request with
  | save path kind value => exact frame_save hHome path value
  | load path kind => exact .refl _ disk
  | loadOrDefault path kind => exact .refl _ disk
  | delete path => exact frame_delete hHome path

theorem disk_outcome_of_isLoad {request : Request} (h : request.isLoad = true) :
    (request.outcome home disk).disk = disk := by
  cases request with
  | save path kind value => cases h
  | load path kind => rfl
  | loadOrDefault path kind => rfl
  | delete path => cases h

/-- An operation that fails leaves every regular file as it is. -/
theorem frame_outcome_of_error {request : Request} {failure : Failure}
    (h : (request.outcome home disk).result = .error failure) :
    Frame ∅ disk (request.outcome home disk).disk := by
  cases request with
  | save path kind value =>
      rw [Request.outcome_save] at h ⊢
      exact frame_save_of_error h
  | load path kind => exact .refl _ disk
  | loadOrDefault path kind => exact .refl _ disk
  | delete path =>
      rw [Request.outcome_delete] at h ⊢
      obtain ⟨-, hResult, -⟩ | ⟨-, hDisk⟩ | ⟨-, -, -, hResult, -⟩ :=
        delete_cases disk (home.below path)
      · cases hResult.symm.trans h
      · rw [hDisk]
        exact .refl _ disk
      · cases hResult.symm.trans h

/-- An operation on a path that does not replace the file there leaves every regular file as it
is. -/
theorem frame_outcome_of_not_replaces {request : Request}
    (h : ¬Step.Replaces ⟨disk, request, request.outcome home disk⟩ request.path) :
    Frame ∅ disk (request.outcome home disk).disk := by
  cases hResult : (request.outcome home disk).result with
  | error failure => exact frame_outcome_of_error hResult
  | ok _ =>
      cases request with
      | save path kind value => exact (h (.inl ⟨kind, value, hResult, rfl⟩)).elim
      | load path kind => exact .refl _ disk
      | loadOrDefault path kind => exact .refl _ disk
      | delete path => exact (h (.inr ⟨hResult, rfl⟩)).elim

/-- A file that an operation does not replace is not touched. -/
theorem exists_frame_of_not_replaces (hHome : disk.follow [] home.steps = .ok (place, .directory))
    {request : Request} {path : PlainPath}
    (h : ¬Step.Replaces ⟨disk, request, request.outcome home disk⟩ path) :
    ∃ touched, place ++ path.names ∉ touched ∧
      Frame touched disk (request.outcome home disk).disk := by
  by_cases hSame : path = request.path
  · subst hSame
    exact ⟨∅, Set.notMem_empty _, frame_outcome_of_not_replaces h⟩
  · have hNames : path.names ≠ request.path.names := fun hEq => hSame (PlainPath.ext hEq)
    exact ⟨_, by simpa using hNames, frame_outcome hHome request⟩

/-- A deletion that does not fail leaves no file, provided that the path leads to the file if there
is one. -/
theorem file?_delete (hHome : disk.follow [] home.steps = .ok (place, .directory))
    {path : PlainPath} (hResult : (delete disk (home.below path)).result = .ok ())
    (hThere : disk.find? (home.below path) = none → disk.file? (place ++ path.names) = none) :
    (delete disk (home.below path)).disk.file? (place ++ path.names) = none := by
  obtain ⟨hMissing, -, hDisk⟩ | ⟨hFailed, -⟩ | ⟨target, content, hFound, -, hDisk⟩ :=
    delete_cases disk (home.below path)
  · rw [hDisk]
    exact hThere hMissing
  · cases hFailed.symm.trans hResult
  · obtain rfl := eq_of_lookUp_below hHome hFound
    rw [hDisk]
    exact file?_remove (entry?_of_follow (lookUp_eq_ok_iff.1 hFound).2.1)

namespace Tracks

variable {steps : List Step}

/-- A path under which nothing is found leads to no file. -/
theorem file?_of_missing (h : Tracks home place steps disk) {path : PlainPath}
    (hMissing : disk.find? (home.below path) = none) :
    disk.file? (place ++ path.names) = none := by
  apply h.free
  intro kind value hSaved
  rw [find?_eq_some_iff.2 (h.saved path kind value hSaved)] at hMissing
  cases hMissing

/-- One more operation keeps the disk and the operations in step. -/
theorem concat (h : Tracks home place steps disk) (request : Request) :
    Tracks home place (steps ++ [⟨disk, request, request.outcome home disk⟩])
      (request.outcome home disk).disk where
  way := (frame_outcome h.way request).follow_directory h.way
  saved path kind value hLast := by
    -- Either the value has just been saved, or its file has not been touched.
    obtain ⟨hResult, hRequest⟩ | ⟨hEarlier, hKept⟩ := (lastSaved_concat_iff ..).1 hLast
    · obtain rfl : request = .save path kind value := hRequest
      have hWay := (frame_outcome h.way (.save path kind value)).follow_directory h.way
      simp only [Request.outcome_save] at hResult hWay ⊢
      obtain ⟨target, hFound⟩ := lookUp_save hResult
      rw [eq_of_lookUp_below hWay hFound] at hFound
      exact hFound
    · obtain ⟨touched, hUntouched, hFrame⟩ := exists_frame_of_not_replaces h.way hKept
      exact hFrame.lookUp_file hUntouched (h.saved path kind value hEarlier)
  free path hNone := by
    by_cases hReplaces : Step.Replaces ⟨disk, request, request.outcome home disk⟩ path
    · obtain ⟨kind, value, hSaves⟩ | ⟨hResult, hRequest⟩ := hReplaces
      · exact (hNone kind value ((lastSaved_concat_iff ..).2 (.inl hSaves))).elim
      · obtain rfl : request = .delete path := hRequest
        simp only [Request.outcome_delete] at hResult ⊢
        exact file?_delete h.way hResult h.file?_of_missing
    · obtain ⟨touched, hUntouched, hFrame⟩ := exists_frame_of_not_replaces h.way hReplaces
      rw [hFrame.files _ hUntouched]
      apply h.free
      intro kind value hEarlier
      exact hNone kind value ((lastSaved_concat_iff ..).2 (.inr ⟨hEarlier, hReplaces⟩))

end Tracks

/-- A path leads to a directory in which there is nothing. -/
structure EmptyDirectory (disk : Disk) (home : Path) (place : List String) : Prop where
  found : disk.lookUp home = .ok (place, .directory)
  empty : ∀ names, names ≠ [] → disk.entry? (place ++ names) = none

theorem tracks_nil (h : EmptyDirectory disk home place) : Tracks home place [] disk where
  way := (lookUp_eq_ok_iff.1 h.found).2.1
  saved path kind value hLast := by
    obtain ⟨before, step, after, hSplit, -⟩ := hLast
    simp at hSplit
  free path _ := by
    rw [file?, h.empty path.names path.nonempty]

/-- The disk and the operations are in step after every run. -/
theorem tracks_run (h : EmptyDirectory disk home place) (requests : List Request) :
    Tracks home place (run home disk requests).1 (run home disk requests).2 := by
  induction requests using List.reverseRecOn with
  | nil => exact tracks_nil h
  | append_singleton history request ih =>
      rw [run_concat]
      exact ih.concat request

/-- Every operation of a run finds the directory where it was and ends as it does on its own. -/
theorem outcome_of_mem_run (hHome : disk.follow [] home.steps = .ok (place, .directory))
    {requests : List Request} {step : Step} (h : step ∈ (run home disk requests).1) :
    step.before.follow [] home.steps = .ok (place, .directory) ∧
      step.outcome = step.request.outcome home step.before := by
  induction requests generalizing disk with
  | nil => cases h
  | cons request rest ih =>
      rcases List.mem_cons.1 h with rfl | hLater
      · exact ⟨hHome, rfl⟩
      · exact ih ((frame_outcome hHome request).follow_directory hHome) hLater

/-- The promise of a store about a run below a directory and the disk it leaves. -/
structure ActsAsStore (home : Path) (place : List String) (steps : List Step) (final : Disk) :
    Prop where
  /-- A value that was last saved under a path is loaded from there, if it is read from its text. -/
  saved : ∀ path kind (value : kind.Value), LastSaved steps path kind value →
    Stored.ofText (Stored.text value) = .ok value → load final (home.below path) = .ok value
  /-- All other paths bring the default, except that a directory in the way is reported. -/
  absent : ∀ path, (∀ kind value, ¬LastSaved steps path kind value) → ∀ kind : Kind,
    let found : Except Failure kind.Value := load final (home.below path)
    ((∃ target, final.find? (home.below path) = some (target, .directory)) →
        found = .error (.file .isDirectory)) ∧
      ((¬∃ target, final.find? (home.below path) = some (target, .directory)) →
        found = .ok default) ∧
      loadOrDefault final (home.below path) = (default : kind.Value)
  /-- No regular file is changed but the one under the path of the operation. -/
  apart : ∀ step ∈ steps, ∀ other, other ≠ place ++ step.request.path.names →
    step.outcome.disk.file? other = step.before.file? other
  loads : ∀ step ∈ steps, step.request.isLoad = true → step.outcome.disk = step.before
  /-- An operation that fails changes no regular file at all. -/
  failed : ∀ step ∈ steps, ∀ failure, step.outcome.result = .error failure →
    ∀ other, step.outcome.disk.file? other = step.before.file? other

/-- Under a path where nothing was saved there is a directory or nothing. -/
theorem Tracks.load_absent {steps : List Step} (h : Tracks home place steps disk)
    {path : PlainPath} (hNone : ∀ kind value, ¬LastSaved steps path kind value) (kind : Kind) :
    let found : Except Failure kind.Value := load disk (home.below path)
    ((∃ target, disk.find? (home.below path) = some (target, .directory)) →
        found = .error (.file .isDirectory)) ∧
      ((¬∃ target, disk.find? (home.below path) = some (target, .directory)) →
        found = .ok default) := by
  intro found
  cases hFound : disk.find? (home.below path) with
  | none => exact ⟨by simp, fun _ => load_of_missing hFound⟩
  | some there =>
      obtain ⟨target, entry⟩ := there
      rw [find?_eq_some_iff] at hFound
      cases entry with
      | directory => exact ⟨fun _ => load_of_directory hFound, fun h => (h ⟨target, rfl⟩).elim⟩
      | file content =>
          have hFree := h.free path hNone
          obtain rfl := eq_of_lookUp_below h.way hFound
          have hFile := file?_eq_some_iff.2 (entry?_of_follow (lookUp_eq_ok_iff.1 hFound).2.1)
          cases hFree.symm.trans hFile

/-- Whatever is saved, loaded and deleted below a directory that was empty at first, its files act as a
store. -/
theorem run_actsAsStore (h : EmptyDirectory disk home place) (requests : List Request) :
    ActsAsStore home place (run home disk requests).1 (run home disk requests).2 := by
  have hTracks := tracks_run h requests
  have hWay := (lookUp_eq_ok_iff.1 h.found).2.1
  constructor
  · intro path kind value hLast hText
    rw [load_of_file (hTracks.saved path kind value hLast), hText]
    rfl
  · intro path hNone kind found
    obtain ⟨hDirectory, hMissing⟩ := hTracks.load_absent hNone kind
    refine ⟨hDirectory, hMissing, ?_⟩
    by_cases hThere : ∃ target,
        (run home disk requests).2.find? (home.below path) = some (target, .directory)
    · rw [loadOrDefault, hDirectory hThere]
    · rw [loadOrDefault, hMissing hThere]
  · intro step hStep other hOther
    obtain ⟨hBefore, hOutcome⟩ := outcome_of_mem_run hWay hStep
    rw [hOutcome]
    exact (frame_outcome hBefore step.request).files other hOther
  · intro step hStep hLoad
    rw [(outcome_of_mem_run hWay hStep).2]
    exact disk_outcome_of_isLoad hLoad
  · intro step hStep failure hFailed other
    rw [(outcome_of_mem_run hWay hStep).2] at hFailed ⊢
    exact (frame_outcome_of_error hFailed).files other (Set.notMem_empty other)

def texts : Kind := ⟨String, inferInstance, inferInstance⟩

def outer : PlainPath := ⟨["a"], by decide, by decide⟩

def inner : PlainPath := ⟨["a", "b"], by decide, by decide⟩

/-- A disk with one directory and nothing else. -/
def oneDirectory : Disk := Disk.empty.put ["data"] .directory

theorem emptyDirectory_oneDirectory : EmptyDirectory oneDirectory ⟨"data"⟩ ["data"] where
  found := lookUp_eq_ok_iff.2 ⟨by decide, rfl, by simp⟩
  empty names hNames := by
    rw [oneDirectory, entry?_put _ (by simp), if_neg (by simpa using hNames.symm)]
    rfl

/-- A file is saved, which makes a directory where another one cannot be saved then. The file is deleted
and saved again. -/
theorem run_actsAsStore_nested :
    let history : List Request :=
      [.save inner texts "x", .save outer texts "y", .delete inner, .load outer texts]
    let done := run ⟨"data"⟩ oneDirectory (history ++ [.save inner texts "z"])
    EmptyDirectory oneDirectory ⟨"data"⟩ ["data"] ∧
      done.1.map (·.outcome.result) = [.ok (), .error (.file .isDirectory), .ok (),
        .error (.file .isDirectory), .ok ()] ∧
      load done.2 (Path.below ⟨"data"⟩ inner) = .ok "z" := by
  intro history done
  refine ⟨emptyDirectory_oneDirectory, by decide, ?_⟩
  have hLast : LastSaved done.1 inner texts "z" := by
    simp only [done, run_concat]
    exact (lastSaved_concat_iff ..).2 (.inl ⟨by decide, rfl⟩)
  exact (run_actsAsStore emptyDirectory_oneDirectory _).saved inner texts "z" hLast
    (readsBack (by decide) "z").text

end NoteForm.Files
