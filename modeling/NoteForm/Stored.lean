import NoteForm.Json.Text
import NoteForm.Json.Layout

/-! Types whose values are kept as JSON texts. -/
namespace NoteForm

class Stored (α : Type) where
  encode : α → Json
  decode : Json.Decoder α

namespace Stored

variable {α : Type} [Stored α]

/-- The text a value is kept as. -/
def text (value : α) : String := (encode value).pretty

/-- Read a text that was kept. -/
def ofText (text : String) : Except Json.Fault α := Json.decodeText decode Json.deepest text

def ofJson (value : Json) : Except Json.Fault α := Json.decodeAs decode value

instance : Stored Json where
  encode value := value
  decode := Json.decodeValue

instance : Stored String where
  encode := .string
  decode := Json.Decoder.string

instance : Stored (List α) where
  encode values := .array (values.map encode)
  decode := Json.Decoder.list decode

instance : Stored (Option α) where
  encode
    | none => .null
    | some value => encode value
  decode := Json.Decoder.option decode

end Stored
end NoteForm
