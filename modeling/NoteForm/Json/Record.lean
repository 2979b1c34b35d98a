import NoteForm.Json.Decode

/-! Records with named fields. A record is written as an object, in any order and with any members
besides its own, or as a list of its fields in their declared order. -/
namespace NoteForm.Json

/-- A field of a record that is being put together in a draft `σ`. -/
structure RecordField (σ : Type) where
  name : String
  isSet : σ → Bool
  decode : (levels : Nat) → Source → σ → Except Fault σ

/-- How an `α` is put together from its fields. `finish` gives the position of the first field that
is neither set nor has a default. -/
structure RecordFormat (σ α : Type) where
  name : String
  blank : σ
  fields : List (RecordField σ)
  finish : σ → Except Nat α

namespace RecordFormat

variable {σ α : Type} (format : RecordFormat σ α)

/-- A field whose value goes into the draft by `set`. -/
def field {β : Type} (name : String) (decode : Decoder β) (get : σ → Option β)
    (set : β → σ → σ) : RecordField σ where
  name := name
  isSet draft := (get draft).isSome
  decode levels source draft := (set · draft) <$> decode levels source

def find? (name : String) : Option (RecordField σ) :=
  format.fields.find? (·.name = name)

/-- End an object. -/
def finishObject (draft : σ) : Except Fault α :=
  match format.finish draft with
  | .ok record => .ok record
  | .error position =>
      .error (.missingMember ((format.fields[position]?.map (·.name)).getD ""))

/-- End a list. -/
def finishList (draft : σ) : Except Fault α :=
  match format.finish draft with
  | .ok record => .ok record
  | .error position => .error (.shortRecord position format.name format.fields.length)

/-- What a key means for the draft: the field to set, or none if the member is to be passed over. A
field that is set already is a fault, even before the colon. -/
def fieldFor (draft : σ) (key : Quoted) : Except Fault (Option (RecordField σ)) := do
  let name ← key.meaning
  match format.find? name with
  | none => .ok none
  | some field =>
      if field.isSet draft then .error (.repeatedMember name) else .ok (some field)

def decodeMembers (levels : Nat) (draft : σ) : Members → Except Fault α
  | .close => format.finishObject draft
  | .stop next => .error (stopInObject next)
  | .keyless next => .error (stopBeforeKey next)
  | .unpaired key next => do
      let _ ← format.fieldFor draft key
      .error (stopAfterKey next)
  | .member key value rest => do
      match ← format.fieldFor draft key with
      | none =>
          value.skip
          decodeMembers levels draft rest
      | some field => do
          let draft ← field.decode levels value draft
          decodeMembers levels draft rest

/-- What is wrong with items behind the last field. -/
def surplus : Items → Option Fault
  | .close => none
  | .stop none => some .endInList
  | .stop (some _) => some .trailingCharacters
  | .item value _ => some (if value.isLoneBracket then .trailingComma else .trailingCharacters)

def decodeItems (levels : Nat) : List (RecordField σ) → σ → Items → Except Fault α
  | [], draft, items =>
      match surplus items with
      | none => format.finishList draft
      | some fault => .error fault
  | _ :: _, draft, .close => format.finishList draft
  | _ :: _, _, .stop next => .error (stopInList next)
  | field :: fields, draft, .item value rest =>
      if value.isLoneBracket then .error .trailingComma
      else do
        let draft ← field.decode levels value draft
        decodeItems levels fields draft rest

def decode : Decoder α
  | 0, .list _ | 0, .object _ => .error .tooDeep
  | levels + 1, .list items => format.decodeItems levels format.fields format.blank items
  | levels + 1, .object members => format.decodeMembers levels format.blank members
  | _, source => .error (source.mismatch ("struct " ++ format.name))

end RecordFormat
end NoteForm.Json
