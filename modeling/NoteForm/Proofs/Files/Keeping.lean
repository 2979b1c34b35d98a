import NoteForm.Proofs.Files.Archive
import NoteForm.Proofs.Json.Reading

/-! What becomes of a written value in a file: it is read again if its kind is read from its form and
the value is not too deep. -/
namespace NoteForm.Files

open Json (Decoder within)

variable {β : Type} [Stored β] {written : Json} {value : β}
  (hReads : Decoder.Reads Stored.decode written value) (hIntegral : written.isIntegral = true)

include hReads hIntegral

/-- A written value is read from its text, unless it is too deep. -/
theorem ofText_text :
    Stored.ofText (Stored.text written) = within Json.deepest written.depth value :=
  Json.decodeText_pretty hReads hIntegral Json.deepest

variable {disk : Disk} {path : Path} (hSave : (save disk path written).result = .ok ())
  [Inhabited β]

include hSave

/-- A value that is not too deep is loaded from the file it was saved to. -/
theorem load_save_of_depth_le (hDepth : written.depth ≤ Json.deepest) :
    load (save disk path written).disk path = .ok value := by
  rw [load_save hSave, ofText_text hReads hIntegral, Json.within_of_le hDepth]
  rfl

/-- A value that is too deep can be saved but not loaded. -/
theorem load_save_of_lt_depth (hDepth : Json.deepest < written.depth) :
    (load (save disk path written).disk path : Except Failure β) = .error (.json .tooDeep) := by
  rw [load_save hSave, ofText_text hReads hIntegral, Json.within_of_lt hDepth]
  rfl

end NoteForm.Files
