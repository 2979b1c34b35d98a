import NoteForm.Json.Decode

/-! Reading whole texts. -/
namespace NoteForm.Json

/-- How many lists and objects may be open inside one another in a text. -/
def deepest : Nat := 127

/-- Read a text as one value with nothing but blanks around it. -/
def decodeText {α : Type} (decode : Decoder α) (levels : Nat) (text : String) : Except Fault α := do
  let (source, rest) := Source.scan text.toList
  let value ← decode levels source
  if (Source.skipBlanks rest).isEmpty then .ok value else .error .trailingCharacters

/-- Read a value, not from a text, as something of another kind. No depth is too much. -/
def decodeAs {α : Type} (decode : Decoder α) (value : Json) : Except Fault α :=
  decode value.depth value.toSource

end NoteForm.Json
