import NoteForm.Files.Archive
import NoteForm.Proofs.Files.Disk

/-! A file that was saved is read as the text of the value, perhaps as a value of another type. -/
namespace NoteForm.Files

theorem fromUTF8?_toUTF8 (text : String) : String.fromUTF8? text.toUTF8 = some text := by
  have hValid : text.toUTF8.IsValidUTF8 := String.toUTF8_eq_toByteArray ▸ text.isValidUTF8
  simp only [String.fromUTF8?, hValid, dif_pos]
  rfl

variable {α β : Type} [Stored α] [Stored β] {disk : Disk} {path : Path} {value : α}

/-- A value is saved as the form it is encoded in. -/
theorem save_encode (disk : Disk) (path : Path) (value : α) :
    save disk path (Stored.encode value) = save disk path value := by
  have hText : Stored.text (Stored.encode value) = Stored.text value := rfl
  rw [save, save, hText]

/-- What is saved has been written, once the directories were there. -/
theorem exists_write_of_save (h : (save disk path value).result = .ok ()) :
    ∃ before : Disk,
      before.write path (Stored.text value).toUTF8 = .ok (save disk path value).disk := by
  revert h
  unfold save
  split
  · rintro ⟨⟩
  · rename_i before hDirectories
    split
    · rintro ⟨⟩
    · rename_i written hWrite
      intro _
      exact ⟨before, hWrite⟩

/-- Whether a value can be saved is a matter of the disk and the path. -/
theorem result_save_eq (disk : Disk) (path : Path) (value : α) (other : β) :
    (save disk path value).result = (save disk path other).result := by
  unfold save
  split
  · rfl
  · rename_i before _
    simp only [Disk.write]
    cases before.placeToWrite path <;> rfl

theorem lookUp_save (h : (save disk path value).result = .ok ()) :
    ∃ place, (save disk path value).disk.lookUp path =
      .ok (place, .file (Stored.text value).toUTF8) := by
  obtain ⟨before, hWrite⟩ := exists_write_of_save h
  exact Disk.lookUp_of_write hWrite

/-- If one value can be saved at a path then any other would be found there. -/
theorem lookUp_save_of_other (h : (save disk path value).result = .ok ()) (other : β) :
    ∃ place, (save disk path other).disk.lookUp path =
      .ok (place, .file (Stored.text other).toUTF8) :=
  lookUp_save ((result_save_eq disk path other value).trans h)

/-- A file is read as the text it holds, if it holds one. -/
theorem readText_of_file {place : List String} {text : String}
    (h : disk.lookUp path = .ok (place, .file text.toUTF8)) : disk.readText path = .ok text := by
  simp only [Disk.readText, h, bind, Except.bind, fromUTF8?_toUTF8]

/-- Reading a file that holds a text fails only if the text is no `β`. -/
theorem read?_of_file {place : List String} {text : String}
    (h : disk.lookUp path = .ok (place, .file text.toUTF8)) :
    (read? disk path : Except Failure (Option β)) =
      ((Stored.ofText text).map some).mapError Failure.json := by
  simp only [read?, Disk.find?_eq_some_iff.2 h, readText_of_file h]
  cases (Stored.ofText text : Except Json.Fault β) <;> rfl

/-- Loading a file fails only if its text is no `β`, and says why. -/
theorem load_of_file [Inhabited β] {place : List String} {text : String}
    (h : disk.lookUp path = .ok (place, .file text.toUTF8)) :
    (load disk path : Except Failure β) = (Stored.ofText text).mapError Failure.json := by
  rw [load, read?_of_file h]
  cases (Stored.ofText text : Except Json.Fault β) <;> rfl

/-- With a default to fall back on it makes no difference why a text is no `β`. -/
theorem loadOrDefault_of_file [Inhabited β] {place : List String} {text : String}
    (h : disk.lookUp path = .ok (place, .file text.toUTF8)) :
    (loadOrDefault disk path : β) = (Stored.ofText text).toOption.getD default := by
  rw [loadOrDefault, load_of_file h]
  cases (Stored.ofText text : Except Json.Fault β) <;> rfl

/-- Bytes that are no text are as good as no file for what is loaded with a default. -/
theorem loadOrDefault_of_bytes [Inhabited β] {place : List String} {content : ByteArray}
    (h : disk.lookUp path = .ok (place, .file content)) (hBytes : String.fromUTF8? content = none) :
    (loadOrDefault disk path : β) = default := by
  simp only [loadOrDefault, load, read?, Disk.find?_eq_some_iff.2 h, Disk.readText, h, bind,
    Except.bind, hBytes]
  rfl

theorem readText_save (h : (save disk path value).result = .ok ()) :
    (save disk path value).disk.readText path = .ok (Stored.text value) := by
  obtain ⟨place, hFound⟩ := lookUp_save h
  exact readText_of_file hFound

/-- What has been saved is loaded as the text of the value is read. -/
theorem load_save [Inhabited β] (h : (save disk path value).result = .ok ()) :
    (load (save disk path value).disk path : Except Failure β) =
      (Stored.ofText (Stored.text value)).mapError Failure.json := by
  obtain ⟨place, hFound⟩ := lookUp_save h
  exact load_of_file hFound

theorem load_of_missing [Inhabited β] (h : disk.find? path = none) :
    (load disk path : Except Failure β) = .ok default := by
  simp only [load, read?, h]
  rfl

theorem load_of_directory [Inhabited β] {place : List String}
    (h : disk.lookUp path = .ok (place, .directory)) :
    (load disk path : Except Failure β) = .error (.file .isDirectory) := by
  simp only [load, read?, Disk.find?_eq_some_iff.2 h, Disk.readText, h, bind, Except.bind]
  rfl

/-- The three ways a deletion can go: nothing is there, a directory is there and stays, or a file is
there and is removed. -/
theorem delete_cases (disk : Disk) (path : Path) :
    (disk.find? path = none ∧ (delete disk path).result = .ok () ∧ (delete disk path).disk = disk) ∨
      (delete disk path).result = .error (.file .isDirectory) ∧ (delete disk path).disk = disk ∨
      ∃ place content, disk.lookUp path = .ok (place, .file content) ∧
        (delete disk path).result = .ok () ∧ (delete disk path).disk = disk.remove place := by
  cases hFound : disk.lookUp path with
  | error fault =>
      have hMissing : disk.find? path = none := by
        rw [Disk.find?, hFound]
        rfl
      exact .inl (by simp only [delete, hMissing]; trivial)
  | ok found =>
      obtain ⟨place, entry⟩ := found
      have hThere := Disk.find?_eq_some_iff.2 hFound
      cases entry with
      | directory =>
          have hRemove : disk.removeFile path = .error .isDirectory := by
            simp only [Disk.removeFile, hFound, bind, Except.bind]
          exact .inr (.inl (by simp only [delete, hThere, hRemove]; trivial))
      | file content =>
          have hRemove : disk.removeFile path = .ok (disk.remove place) := by
            simp only [Disk.removeFile, hFound, bind, Except.bind]
          exact .inr (.inr ⟨place, content, rfl, by simp only [delete, hThere, hRemove]; trivial⟩)

end NoteForm.Files
