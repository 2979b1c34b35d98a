import NoteForm.Proofs.Files.Keeping
import NoteForm.Proofs.Records

/-! Stored values survive their files. Whatever a note type, a note, a label policy or a container of
texts holds, it is read from its file as it was saved. -/
namespace NoteForm

open Json (Decoder RecordFormat)

@[simp] theorem isIntegral_encodeWord (word : UInt64) : (encodeWord word).isIntegral = true := rfl

@[simp] theorem depth_encodeWord (word : UInt64) : (encodeWord word).depth = 0 := rfl

/-- A type whose values are read as they were written. No form of a value is `null`, and at most
`levels` lists and objects are open inside one another in it. -/
class Stored.Lawful (α : Type) [Stored α] (levels : outParam Nat) : Prop where
  present (value : α) : Stored.encode value ≠ .null
  reads (value : α) : (Stored.decode : Decoder α).Reads (Stored.encode value) value
  isIntegral (value : α) : (Stored.encode value).isIntegral = true
  depth_le (value : α) : (Stored.encode value).depth ≤ levels

open Stored (Lawful)

instance : Lawful String 0 where
  present text := by simp [Stored.encode]
  reads text := Decoder.reads_string text
  isIntegral text := rfl
  depth_le text := Nat.le_refl 0

instance {α : Type} [Stored α] {levels : Nat} [Lawful α levels] :
    Lawful (List α) (levels + 1) where
  present values := by simp [Stored.encode]
  reads values := by
    apply Decoder.reads_list
    apply List.forall₂_map_left_iff.2
    exact List.forall₂_same.2 fun value _ => Lawful.reads value
  isIntegral values := by
    apply Json.areIntegralItems_iff.2
    exact List.forall_mem_map.2 fun value _ => Lawful.isIntegral value
  depth_le values := by
    apply Nat.succ_le_succ
    apply Json.depthOfItems_le_iff.2
    exact List.forall_mem_map.2 fun value _ => Lawful.depth_le value

instance : Lawful FieldDefinition 1 where
  present definition := by simp [Stored.encode]
  reads definition := by
    apply RecordFormat.reads_object
    intro levels
    apply RecordFormat.decodeMembers_field rfl rfl (Decoder.reads_string definition.name)
    apply RecordFormat.decodeMembers_field rfl rfl (Decoder.reads_word "usize" definition.slot)
    apply RecordFormat.decodeMembers_field rfl rfl (Decoder.reads_bool definition.sticky)
    exact RecordFormat.decodeMembers_nil rfl
  isIntegral definition := rfl
  depth_le definition := Nat.le_refl 1

instance : Lawful NoteType 3 where
  present noteType := by simp [Stored.encode]
  reads noteType := by
    apply RecordFormat.reads_object
    intro levels
    apply RecordFormat.decodeMembers_field rfl rfl (Decoder.reads_word "u64" noteType.id)
    apply RecordFormat.decodeMembers_field rfl rfl (Decoder.reads_string noteType.name)
    apply RecordFormat.decodeMembers_field rfl rfl (Lawful.reads noteType.fields)
    exact RecordFormat.decodeMembers_nil rfl
  isIntegral noteType := by
    have hFields := Lawful.isIntegral noteType.fields
    apply Json.areIntegralMembers_iff.2
    simp [Json.isIntegral, hFields]
  depth_le noteType := by
    have hFields := Lawful.depth_le noteType.fields
    apply Nat.succ_le_succ
    apply Json.depthOfMembers_le_iff.2
    simp [Json.depth, hFields]

instance : Lawful NoteField 1 where
  present field := by simp [Stored.encode]
  reads field := by
    apply RecordFormat.reads_object
    intro levels
    apply RecordFormat.decodeMembers_field rfl rfl (Decoder.reads_string field.name)
    apply RecordFormat.decodeMembers_field rfl rfl (Decoder.reads_string field.value)
    exact RecordFormat.decodeMembers_nil rfl
  isIntegral field := rfl
  depth_le field := Nat.le_refl 1

instance : Lawful Note 3 where
  present note := by simp [Stored.encode]
  reads note := by
    apply RecordFormat.reads_object
    intro levels
    apply RecordFormat.decodeMembers_field rfl rfl (Decoder.reads_string note.typeName)
    apply RecordFormat.decodeMembers_field rfl rfl (Lawful.reads note.fields)
    exact RecordFormat.decodeMembers_nil rfl
  isIntegral note := by
    have hFields := Lawful.isIntegral note.fields
    apply Json.areIntegralMembers_iff.2
    simp [Json.isIntegral, hFields]
  depth_le note := by
    have hFields := Lawful.depth_le note.fields
    apply Nat.succ_le_succ
    apply Json.depthOfMembers_le_iff.2
    simp [Json.depth, hFields]

instance : Lawful LabelPolicy 1 where
  present policy := by simp [Stored.encode]
  reads policy := by
    apply RecordFormat.reads_object
    intro levels
    apply RecordFormat.decodeMembers_field rfl rfl (Decoder.reads_word "usize" policy.minOldFields)
    apply RecordFormat.decodeMembers_field rfl rfl (Decoder.reads_string policy.template)
    exact RecordFormat.decodeMembers_nil rfl
  isIntegral policy := rfl
  depth_le policy := Nat.le_refl 1

namespace Files

/-- What is read back, from the text and from a file, once the value has been saved there. -/
structure ReadsBack {α β : Type} [Stored α] [Stored β] [Inhabited β] (value : α) (read : β) :
    Prop where
  text : Stored.ofText (Stored.text value) = .ok read
  file (disk : Disk) (path : Path) : (save disk path value).result = .ok () →
    load (save disk path value).disk path = .ok read

variable {α β : Type} [Stored α] [Stored β] [Inhabited β] {written : Json} {value : β}

/-- A form that is not too deep is read back from the text and from the file alike. -/
theorem readsBack_of_depth_le (hReads : Decoder.Reads Stored.decode written value)
    (hIntegral : written.isIntegral = true) (hDepth : written.depth ≤ Json.deepest) :
    ReadsBack written value where
  text := by rw [ofText_text hReads hIntegral, Json.within_of_le hDepth]
  file disk path hSave := load_save_of_depth_le hReads hIntegral hSave hDepth

/-- It makes no difference whether a value or its written form is saved. -/
theorem readsBack_of_encode {value : α} {read : β} (h : ReadsBack (Stored.encode value) read) :
    ReadsBack value read where
  text := h.text
  file disk path := by
    have hFile := h.file disk path
    rwa [save_encode] at hFile

variable {levels : Nat}

/-- A value of a lawful type is read back as it was. -/
theorem readsBack [Inhabited α] [Lawful α levels] (hLevels : levels ≤ Json.deepest) (value : α) :
    ReadsBack value value :=
  readsBack_of_encode (readsBack_of_depth_le (Lawful.reads value) (Lawful.isIntegral value)
    (Nat.le_trans (Lawful.depth_le value) hLevels))

/-- A file that may be missing is read as an optional value. -/
theorem readsBack_some [Lawful α levels] (hLevels : levels ≤ Json.deepest) (value : α) :
    ReadsBack value (some value) :=
  readsBack_of_encode (readsBack_of_depth_le
    (Decoder.reads_option (Lawful.present value) (Lawful.reads value)) (Lawful.isIntegral value)
    (Nat.le_trans (Lawful.depth_le value) hLevels))

/-- A container of lawful states is three levels deeper than they are. -/
theorem readsBack_of_writtenAs [Lawful α levels] (hLevels : levels + 3 ≤ Json.deepest)
    {saved : SavedState α} (hWritten : saved.WrittenAs written) : ReadsBack written saved := by
  apply readsBack_of_depth_le
  · exact hWritten.reads fun state _ => Lawful.reads state
  · exact hWritten.isIntegral_iff.2 fun state _ => Lawful.isIntegral state
  · exact Nat.le_trans (hWritten.depth_le_iff.2 fun state _ => Lawful.depth_le state) hLevels

/-- Every note type, note and label policy is read from its file as it was saved, and so is every
container of texts, in whatever order its views were written. Note types and notes are read as
values that might be missing. -/
theorem stored_values_read_back :
    (∀ noteType : NoteType, ReadsBack noteType (some noteType)) ∧
      (∀ note : Note, ReadsBack note (some note)) ∧
      (∀ policy : LabelPolicy, ReadsBack policy policy) ∧
      ∀ (saved : SavedState String) (written : Json), saved.WrittenAs written →
        ReadsBack written saved :=
  ⟨readsBack_some (by decide), readsBack_some (by decide), readsBack (by decide),
    fun _ _ hWritten => readsBack_of_writtenAs (by decide) hWritten⟩

/-- Texts with characters to escape, under ids that occur twice and below zero. -/
def escapedTexts : SavedState String :=
  ⟨some [7, -5, 7], some ⟨some (Views.ofList [(-5, "\x00\"\\"), (7, "\x1f\n/é")])⟩⟩

/-- The texts with their views in descending order. -/
def escapedTextsForm : Json :=
  .object [("customViewIds", Stored.encode [(7 : Int32), -5, 7]),
    ("viewHierarchyState", .object [("views", .object
      [("7", .string "\x1f\n/é"), ("-5", .string "\x00\"\\")])])]

theorem writtenAs_escapedTextsForm : escapedTexts.WrittenAs escapedTextsForm := by
  have hViews : (Views.ofList [(-5, "\x00\"\\"), (7, "\x1f\n/é")]).WrittenAs
      (.object [("7", .string "\x1f\n/é"), ("-5", .string "\x00\"\\")]) :=
    ⟨[(7, "\x1f\n/é"), (-5, "\x00\"\\")], List.Perm.swap _ _ [], rfl⟩
  exact ⟨_, [("viewHierarchyState", _)], ⟨_, rfl, rfl⟩, ⟨_, ⟨_, ⟨_, hViews, rfl⟩, rfl⟩, rfl⟩, rfl⟩

theorem stored_values_read_back_escaped :
    let path : Path := ⟨"form/texts.json"⟩
    load (save Disk.empty path escapedTextsForm).disk path = .ok escapedTexts := by
  intro path
  obtain ⟨-, -, -, hSaved⟩ := stored_values_read_back
  exact (hSaved escapedTexts escapedTextsForm writtenAs_escapedTextsForm).file Disk.empty path
    (by decide)

end Files
end NoteForm
