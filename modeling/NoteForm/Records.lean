import NoteForm.Stored
import NoteForm.Json.Record
import NoteForm.Note
import NoteForm.LabelPolicy
import NoteForm.Capture

/-! How note types, notes, label policies and saved containers are kept. -/
namespace NoteForm

open Json (RecordFormat Decoder)

def encodeWord (word : UInt64) : Json := .number (.ofWord word)

namespace FieldDefinition

structure Draft where
  name : Option String
  slot : Option Slot
  sticky : Option Bool

/-- A field is not sticky unless it says so. -/
def format : RecordFormat Draft FieldDefinition where
  name := "FieldDefinition"
  blank := ⟨none, none, none⟩
  fields :=
    [RecordFormat.field "name" .string (·.name) fun name draft => { draft with name },
      RecordFormat.field "ord" (.word "usize") (·.slot) fun slot draft => { draft with slot },
      RecordFormat.field "sticky" .bool (·.sticky) fun sticky draft => { draft with sticky }]
  finish
    | ⟨none, _, _⟩ => .error 0
    | ⟨some _, none, _⟩ => .error 1
    | ⟨some name, some slot, sticky⟩ => .ok ⟨name, slot, sticky.getD false⟩

instance : Stored FieldDefinition where
  encode definition :=
    .object [("name", .string definition.name), ("ord", encodeWord definition.slot),
      ("sticky", .bool definition.sticky)]
  decode := format.decode

end FieldDefinition

namespace NoteType

structure Draft where
  id : Option UInt64
  name : Option String
  fields : Option (List FieldDefinition)

/-- A note type without an id has the id zero. -/
def format : RecordFormat Draft NoteType where
  name := "Model"
  blank := ⟨none, none, none⟩
  fields :=
    [RecordFormat.field "id" (.word "u64") (·.id) fun id draft => { draft with id },
      RecordFormat.field "name" .string (·.name) fun name draft => { draft with name },
      RecordFormat.field "flds" (.list Stored.decode) (·.fields) fun fields draft =>
        { draft with fields }]
  finish
    | ⟨_, none, _⟩ => .error 1
    | ⟨_, some _, none⟩ => .error 2
    | ⟨id, some name, some fields⟩ => .ok ⟨id.getD 0, name, fields⟩

instance : Stored NoteType where
  encode noteType :=
    .object [("id", encodeWord noteType.id), ("name", .string noteType.name),
      ("flds", Stored.encode noteType.fields)]
  decode := format.decode

end NoteType

namespace NoteField

structure Draft where
  name : Option String
  value : Option String

def format : RecordFormat Draft NoteField where
  name := "NoteField"
  blank := ⟨none, none⟩
  fields :=
    [RecordFormat.field "name" .string (·.name) fun name draft => { draft with name },
      RecordFormat.field "value" .string (·.value) fun value draft => { draft with value }]
  finish
    | ⟨none, _⟩ => .error 0
    | ⟨some _, none⟩ => .error 1
    | ⟨some name, some value⟩ => .ok ⟨name, value⟩

instance : Stored NoteField where
  encode field := .object [("name", .string field.name), ("value", .string field.value)]
  decode := format.decode

end NoteField

namespace Note

structure Draft where
  typeName : Option String
  fields : Option (List NoteField)

def format : RecordFormat Draft Note where
  name := "Note"
  blank := ⟨none, none⟩
  fields :=
    [RecordFormat.field "model_name" .string (·.typeName) fun typeName draft =>
        { draft with typeName },
      RecordFormat.field "fields" (.list Stored.decode) (·.fields) fun fields draft =>
        { draft with fields }]
  finish
    | ⟨none, _⟩ => .error 0
    | ⟨some _, none⟩ => .error 1
    | ⟨some typeName, some fields⟩ => .ok ⟨typeName, fields⟩

instance : Stored Note where
  encode note :=
    .object [("model_name", .string note.typeName), ("fields", Stored.encode note.fields)]
  decode := format.decode

end Note

namespace LabelPolicy

structure Draft where
  minOldFields : Option UInt64
  template : Option String

/-- What a stored policy leaves out is as in the standard policy. -/
def format : RecordFormat Draft LabelPolicy where
  name := "FieldStateSettings"
  blank := ⟨none, none⟩
  fields :=
    [RecordFormat.field "remap_label_min_old_fields" (.word "usize") (·.minOldFields)
        fun minOldFields draft => { draft with minOldFields },
      RecordFormat.field "remap_label_template" .string (·.template) fun template draft =>
        { draft with template }]
  finish draft :=
    .ok ⟨draft.minOldFields.getD standard.minOldFields, draft.template.getD standard.template⟩

instance : Stored LabelPolicy where
  encode policy :=
    .object [("remap_label_min_old_fields", encodeWord policy.minOldFields),
      ("remap_label_template", .string policy.template)]
  decode := format.decode

end LabelPolicy

/-- A member that is left out if there is nothing to write. -/
def optionalMember {α : Type} [Stored α] (name : String) : Option α → List (String × Json)
  | none => []
  | some value => [(name, Stored.encode value)]

instance : Stored Int32 where
  encode id := .number (.ofId id)
  decode := .viewId

instance {S : Type} [Stored S] : Stored (Views S) where
  encode views := .object (views.entries.map fun (id, state) =>
    (Json.viewIdName id, Stored.encode state))
  decode levels source := Views.ofList <$> Decoder.byViewId Stored.decode levels source

namespace ViewHierarchy

variable {S : Type} [Stored S]

/-- The only field, by itself the draft: unset, absent or present. -/
def format : RecordFormat (Option (Option (Views S))) (ViewHierarchy S) where
  name := "ViewHierarchyState"
  blank := none
  fields := [RecordFormat.field "views" Stored.decode id fun views _ => some views]
  finish draft := .ok ⟨draft.getD none⟩

instance : Stored (ViewHierarchy S) where
  encode hierarchy := .object (optionalMember "views" hierarchy.views)
  decode := format.decode

end ViewHierarchy

namespace SavedState

variable {S : Type} [Stored S]

structure Draft (S : Type) where
  viewIds : Option (Option (List Int32))
  hierarchy : Option (Option (ViewHierarchy S))

/-- A part that is missing or `null` is absent. -/
def format : RecordFormat (Draft S) (SavedState S) where
  name := "SavedInstanceState"
  blank := ⟨none, none⟩
  fields :=
    [RecordFormat.field "customViewIds" Stored.decode (·.viewIds) fun viewIds draft =>
        { draft with viewIds := some viewIds },
      RecordFormat.field "viewHierarchyState" Stored.decode (·.hierarchy) fun hierarchy draft =>
        { draft with hierarchy := some hierarchy }]
  finish draft := .ok ⟨draft.viewIds.getD none, draft.hierarchy.getD none⟩

instance : Stored (SavedState S) where
  encode saved :=
    .object (optionalMember "customViewIds" saved.viewIds ++
      optionalMember "viewHierarchyState" saved.hierarchy)
  decode := format.decode

end SavedState
end NoteForm
