import Mathlib.Data.List.Induction
import NoteForm.Note
import NoteForm.Proofs.FieldIndex
import NoteForm.Proofs.Histories

/-! What a note holds after any number of edits. Edits find fields by name, so a note whose names differ
can be looked at field by field: what a field holds is a matter of the edits alone that concern its
name, whatever note types the form was cleared by in between. -/
namespace NoteForm

namespace NoteType

/-- The last definition of this name exists and is sticky. -/
def KeepsValue (t : NoteType) (name : String) : Prop :=
  ∃ before definition after, t.fields = before ++ definition :: after ∧ definition.name = name ∧
    (∀ later ∈ after, later.name ≠ name) ∧ definition.sticky = true

/-- The definition found under a name is the last one, so it decides. -/
theorem keepsValue_iff (t : NoteType) (name : String) :
    t.KeepsValue name ↔ (t.index.find? name).any (·.sticky) = true := by
  rw [FieldIndex.find?_index, Option.any_eq_true]
  constructor
  · rintro ⟨before, definition, after, hSplit, hName, hAfter, hSticky⟩
    exact ⟨definition, Ascending.find?_reverse_eq_some_iff.2
      ⟨hName, before, after, hSplit, hAfter⟩, hSticky⟩
  · rintro ⟨definition, hFound, hSticky⟩
    obtain ⟨hName, before, after, hSplit, hAfter⟩ :=
      Ascending.find?_reverse_eq_some_iff.1 hFound
    exact ⟨before, definition, after, hSplit, hName, hAfter, hSticky⟩

instance (t : NoteType) (name : String) : Decidable (t.KeepsValue name) :=
  decidable_of_iff _ (t.keepsValue_iff name).symm

/-- A blank note has the declared names. -/
theorem fieldNames_perm (t : NoteType) : t.fieldNames.Perm (t.fields.map (·.name)) :=
  (Ascending.arrange_perm (fun definition : FieldDefinition => definition.slot) t.fields).map _

end NoteType

namespace Note

/-- What is done to the values of a note. -/
inductive Edit where
  | set (name value : String)
  /-- The form is cleared for the next note. Which fields are sticky is up to any note type. -/
  | clear (t : NoteType)

namespace Edit

/-- Whatever the field of this name holds gives way to the edit. -/
def Replaces : Edit → String → Prop
  | .set other _, name => other = name
  | .clear t, name => ¬ t.KeepsValue name

instance (edit : Edit) (name : String) : Decidable (edit.Replaces name) :=
  match edit with
  | .set other _ => inferInstanceAs (Decidable (other = name))
  | .clear t => inferInstanceAs (Decidable (¬ t.KeepsValue name))

/-- What becomes of a field by itself. -/
def onField (field : NoteField) : Edit → NoteField
  | .set name value => if field.name = name then { field with value } else field
  | .clear t =>
      if (t.index.find? field.name).any (·.sticky) then field else { field with value := "" }

@[simp]
theorem name_onField (field : NoteField) (edit : Edit) : (onField field edit).name = field.name := by
  cases edit <;> simp only [onField] <;> split <;> rfl

@[simp] theorem name_foldl_onField (field : NoteField) (history : List Edit) :
    (history.foldl onField field).name = field.name := by
  induction history generalizing field with
  | nil => rfl
  | cons edit rest ih => simp [ih]

theorem onField_of_not_replaces {field : NoteField} {edit : Edit}
    (h : ¬ edit.Replaces field.name) : onField field edit = field := by
  cases edit with
  | set name value => exact if_neg fun hName => h hName.symm
  | clear t => exact if_pos ((t.keepsValue_iff field.name).1 (not_not.1 h))

@[simp] theorem value_onField_set (field : NoteField) (value : String) :
    (onField field (.set field.name value)).value = value := by
  rw [onField, if_pos rfl]

theorem value_onField_clear {field : NoteField} {t : NoteType} (h : ¬ t.KeepsValue field.name) :
    (onField field (.clear t)).value = "" := by
  rw [onField, if_neg (mt (t.keepsValue_iff field.name).2 h)]

end Edit

/-- The note after an edit. -/
def edit (note : Note) : Edit → Note
  | .set name value => (note.setValue name value).1
  | .clear t => note.clear t

/-- The note after edits, one after the other. -/
def edited (note : Note) (history : List Edit) : Note := history.foldl edit note

/-- The last time this value was set under this name is the last time the field was touched. This
speaks of the edits alone and not of any note. -/
def LastSet (history : List Edit) (name value : String) : Prop :=
  ∃ before edit after, history = before ++ edit :: after ∧ edit = .set name value ∧
    ∀ later ∈ after, ¬ later.Replaces name

@[simp] theorem not_lastSet_nil (name value : String) : ¬ LastSet [] name value := by
  rintro ⟨before, edit, after, hSplit, -⟩
  simp at hSplit

/-- The last edit either sets the value itself or leaves it there. -/
theorem lastSet_concat_iff (history : List Edit) (edit : Edit) (name value : String) :
    LastSet (history ++ [edit]) name value ↔
      edit = .set name value ∨ (LastSet history name value ∧ ¬ edit.Replaces name) :=
  exists_begins_concat_iff

/-- Where names differ, the first field of a name is the only one. -/
theorem setFirst_eq_map {fields : List NoteField} (h : (fields.map (·.name)).Nodup)
    (name value : String) :
    (setFirst name value fields).1 =
      fields.map fun field => if field.name = name then { field with value } else field := by
  induction fields with
  | nil => rfl
  | cons field rest ih =>
      obtain ⟨hHead, hRest⟩ := List.nodup_cons.1 h
      rw [setFirst, List.map_cons]
      split
      · rename_i hName
        have hOthers : ∀ other ∈ rest, other.name ≠ name := by
          intro other hOther hSame
          exact hHead (List.mem_map.2 ⟨other, hOther, hSame.trans hName.symm⟩)
        rw [List.map_congr_left fun other hOther => if_neg (hOthers other hOther), List.map_id']
      · exact congrArg (field :: ·) (ih hRest)

/-- There is a field to be set if the name is one of the names. -/
theorem setFirst_found (name value : String) (fields : List NoteField) :
    (setFirst name value fields).2 = true ↔ name ∈ fields.map (·.name) := by
  induction fields with
  | nil => simp [setFirst]
  | cons field rest ih =>
      rw [setFirst, List.map_cons, List.mem_cons]
      split
      · rename_i hName
        simp [hName]
      · rename_i hName
        rw [or_iff_right (Ne.symm hName)]
        exact ih

/-- An edit deals with each field by itself. -/
theorem fields_edit {note : Note} (h : (note.fields.map (·.name)).Nodup) (edit : Edit) :
    (note.edit edit).fields = note.fields.map fun field => edit.onField field := by
  cases edit with
  | set name value => exact setFirst_eq_map h name value
  | clear t => rfl

/-- The names of a note outlast an edit, so they differ afterwards if they did before. -/
theorem names_edit {note : Note} (h : (note.fields.map (·.name)).Nodup) (edit : Edit) :
    (note.edit edit).fields.map (·.name) = note.fields.map (·.name) := by
  simp [fields_edit h, Function.comp_def]

/-- So do edits one after the other: no field depends on what another one holds. -/
theorem fields_edited {note : Note} (h : (note.fields.map (·.name)).Nodup) (history : List Edit) :
    (note.edited history).fields = note.fields.map fun field =>
      history.foldl Edit.onField field := by
  induction history generalizing note with
  | nil => exact (List.map_id' note.fields).symm
  | cons edit rest ih =>
      have hEdited : ((note.edit edit).fields.map (·.name)).Nodup := by rwa [names_edit h]
      change ((note.edit edit).edited rest).fields = _
      rw [ih hEdited, fields_edit h, List.map_map]
      rfl

theorem names_edited {note : Note} (h : (note.fields.map (·.name)).Nodup) (history : List Edit) :
    (note.edited history).fields.map (·.name) = note.fields.map (·.name) := by
  simp [fields_edited h, Function.comp_def]

/-- No edit changes the type of a note, not even clearing by another type. -/
@[simp] theorem typeName_edited (note : Note) (history : List Edit) :
    (note.edited history).typeName = note.typeName := by
  induction history generalizing note with
  | nil => rfl
  | cons edit rest ih =>
      have hEdit : (note.edit edit).typeName = note.typeName := by cases edit <;> rfl
      exact (ih (note.edit edit)).trans hEdit

/-- A field that was empty to begin with holds what was set last, if that has not been replaced, and is
empty otherwise. -/
theorem value_foldl_onField (name : String) (history : List Edit) :
    (∀ value, LastSet history name value →
        (history.foldl Edit.onField ⟨name, ""⟩).value = value) ∧
      ((∀ value, ¬ LastSet history name value) →
        (history.foldl Edit.onField ⟨name, ""⟩).value = "") := by
  -- From the end, since what an edit replaces is what came before it.
  induction history using List.reverseRecOn with
  | nil => simp
  | append_singleton history edit ih =>
      have hName : (history.foldl Edit.onField ⟨name, ""⟩).name = name :=
        Edit.name_foldl_onField _ history
      simp only [List.foldl_append, List.foldl_cons, List.foldl_nil, lastSet_concat_iff]
      generalize history.foldl Edit.onField ⟨name, ""⟩ = field at ih hName ⊢
      subst hName
      by_cases hReplaces : edit.Replaces field.name
      · cases edit with
        | set other value =>
            have hSame : other = field.name := hReplaces
            subst hSame
            rw [Edit.value_onField_set]
            refine ⟨?_, fun hNever => absurd (.inl rfl) (hNever value)⟩
            rintro _ (hSet | ⟨-, hKept⟩)
            · exact (Edit.set.inj hSet).2
            · exact absurd hReplaces hKept
        | clear t =>
            rw [Edit.value_onField_clear hReplaces]
            refine ⟨?_, fun _ => rfl⟩
            rintro _ (hSet | ⟨-, hKept⟩)
            · cases hSet
            · exact absurd hReplaces hKept
      · rw [Edit.onField_of_not_replaces hReplaces]
        have hOther (value : String) : edit ≠ .set field.name value := by
          rintro rfl
          exact hReplaces rfl
        simpa only [hOther, false_or, hReplaces, not_false_iff, and_true] using ih

/-- A note starts out blank and goes through edits in any order, with the form cleared by any note types
and not only by its own. Provided that the names of its type differ, it keeps the name of the type and
the names of its fields in their order, and setting a value succeeds exactly under the declared names and
leaves all other fields alone. Each field holds the value that was set last under its name unless
the form has since been cleared by a note type whose last definition of the name is missing or not
sticky, and then it is empty, as it is if nothing was ever set. -/
theorem values_follow_edits (t : NoteType) (hNames : (t.fields.map (·.name)).Nodup)
    (history : List Edit) :
    let note := (blank t).edited history
    note.typeName = t.name ∧
      note.fields.map (·.name) = (blank t).fields.map (·.name) ∧
      (∀ name value, (note.setValue name value).2 = true ↔ name ∈ t.fields.map (·.name)) ∧
      (∀ name value, (note.setValue name value).1.fields = note.fields.map fun field =>
        if field.name = name then { field with value } else field) ∧
      ∀ field ∈ note.fields,
        (∀ value, LastSet history field.name value → field.value = value) ∧
          ((∀ value, ¬ LastSet history field.name value) → field.value = "") := by
  intro note
  have hBlank : (blank t).fields.map (·.name) = t.fieldNames := by
    rw [blank, List.map_map]
    exact List.map_id' t.fieldNames
  have hDistinct : ((blank t).fields.map (·.name)).Nodup := by
    rw [hBlank]
    exact t.fieldNames_perm.nodup_iff.2 hNames
  have hKept : note.fields.map (·.name) = (blank t).fields.map (·.name) :=
    names_edited hDistinct history
  refine ⟨typeName_edited _ history, hKept, fun name value => ?_, fun name value => ?_, ?_⟩
  · rw [← t.fieldNames_perm.mem_iff, ← hBlank, ← hKept]
    exact setFirst_found name value note.fields
  · exact setFirst_eq_map (hKept ▸ hDistinct) name value
  · intro field hField
    have hFields : note.fields = _ := fields_edited hDistinct history
    rw [hFields, blank, List.map_map] at hField
    obtain ⟨name, -, rfl⟩ := List.mem_map.1 hField
    simp only [Function.comp_apply, Edit.name_foldl_onField]
    exact value_foldl_onField name history

/-- The last definition of one name is sticky and that of the other one is not. -/
def mixedUp : NoteType := ⟨0, "Mixed up", [⟨"Source", 0, false⟩, ⟨"Front", 1, true⟩,
  ⟨"Source", 2, true⟩, ⟨"Front", 1, false⟩]⟩

theorem values_follow_edits_mixedUp :
    let card : NoteType := .ofNames "Card" ["Front", "Back", "Source"]
    let history : List Edit := [.set "Source" "p. 7", .set "Front" "dog", .set "Back" "Hund",
      .clear mixedUp, .set "Missing" "x", .set "Back" "Katze"]
    let note := (blank card).edited history
    (card.fields.map (·.name)).Nodup ∧ LastSet history "Source" "p. 7" ∧
      (∀ field ∈ note.fields, field.name = "Source" → field.value = "p. 7") ∧
      note.fields = [⟨"Front", ""⟩, ⟨"Back", "Katze"⟩, ⟨"Source", "p. 7"⟩] ∧
      ((note.setValue "Missing" "y").2 = true ↔ "Missing" ∈ ["Front", "Back", "Source"]) := by
  intro card history note
  have hNames : (card.fields.map (·.name)).Nodup := by decide
  have hSet : LastSet history "Source" "p. 7" := ⟨[], _, _, rfl, rfl, by decide⟩
  obtain ⟨-, -, hFields, -, hValues⟩ := values_follow_edits card hNames history
  refine ⟨hNames, hSet, fun field hField hSource => ?_, by decide, hFields "Missing" "y"⟩
  exact (hValues field hField).1 _ (hSource ▸ hSet)

end Note
end NoteForm
