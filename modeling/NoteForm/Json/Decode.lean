import NoteForm.Json.Source

/-! Reading the form of a text as a value of an expected kind. Forms are read from left to right,
and the first fault met is the outcome. -/
namespace NoteForm.Json

/-- Read a form as an `α` if up to `levels` lists and objects may be open inside one another. -/
abbrev Decoder (α : Type) := (levels : Nat) → Source → Except Fault α

def Numeral.Defect.fault (malformed : Fault) : Numeral.Defect → Fault
  | .cutShort => .endInValue
  | .malformed => malformed

/-- What is wrong where a value is missing. -/
def missingValue : Option Char → Fault
  | none => .endInValue
  | some _ => .valueExpected

/-- What is wrong with a form that is not of the expected kind. Its own faults go first, but lists
and objects are not looked into. -/
def Source.mismatch (expected : String) : Source → Fault
  | .missing next => missingValue next
  | .null => .wrongType .null expected
  | .bool value => .wrongType (.bool value) expected
  | .misspelt defect => defect.fault .wordExpected
  | .number none => .numberOutOfRange
  | .number (some value) => .wrongType (.number value) expected
  | .misnumbered defect => defect.fault .invalidNumber
  | .string text =>
      match text.meaning with
      | .ok meaning => .wrongType (.string meaning) expected
      | .error fault => fault
  | .list _ => .wrongType .list expected
  | .object _ => .wrongType .object expected

/-- What is wrong where a list neither goes on nor ends. -/
def stopInList : Option Char → Fault
  | none => .endInList
  | some _ => .listEndExpected

/-- What is wrong where an object neither goes on nor ends. -/
def stopInObject : Option Char → Fault
  | none => .endInObject
  | some _ => .objectEndExpected

/-- What is wrong where a colon is missing. -/
def stopAfterKey : Option Char → Fault
  | none => .endInObject
  | some _ => .colonExpected

/-- What is wrong where a key is missing. The closing brace stands there only behind a comma. -/
def stopBeforeKey : Option Char → Fault
  | none => .endInValue
  | some '}' => .trailingComma
  | some _ => .keyNotString

/-- Whether a form is the closing bracket in the place of an item, as behind a last comma. -/
def Source.isLoneBracket : Source → Bool
  | .missing (some ']') => true
  | _ => false

mutual

/-- Pass over a value that nobody asked for. Nothing limits how deep it is, numbers need not be in
range and surrogates need no partner. -/
def Source.skip : Source → Except Fault Unit
  | .missing next => .error (missingValue next)
  | .null | .bool _ | .number _ => .ok ()
  | .misspelt defect => .error (defect.fault .wordExpected)
  | .misnumbered _ => .error .invalidNumber
  | .string text => text.skim
  | .list items => items.skip
  | .object members => members.skip

def Items.skip : Items → Except Fault Unit
  | .close => .ok ()
  | .stop next => .error (stopInList next)
  | .item value rest => do
      value.skip
      rest.skip

def Members.skip : Members → Except Fault Unit
  | .close => .ok ()
  | .stop next => .error (stopInObject next)
  | .keyless none => .error .endInObject
  | .keyless (some _) => .error .keyNotString
  | .unpaired key next => do
      key.skim
      .error (stopAfterKey next)
  | .member key value rest => do
      key.skim
      value.skip
      rest.skip

end

mutual

/-- Read any value. Of members with the same name the last one counts. -/
def decodeValue : Decoder Json
  | _, .missing next => .error (missingValue next)
  | _, .null => .ok .null
  | _, .bool value => .ok (.bool value)
  | _, .misspelt defect => .error (defect.fault .wordExpected)
  | _, .number none => .error .numberOutOfRange
  | _, .number (some value) => .ok (.number value)
  | _, .misnumbered defect => .error (defect.fault .invalidNumber)
  | _, .string text => .string <$> text.meaning
  | 0, .list _ | 0, .object _ => .error .tooDeep
  | levels + 1, .list items => .array <$> decodeItems levels items
  | levels + 1, .object members => .object <$> decodeMembers levels [] members

def decodeItems (levels : Nat) : Items → Except Fault (List Json)
  | .close => .ok []
  | .stop next => .error (stopInList next)
  | .item value rest =>
      if value.isLoneBracket then .error .trailingComma
      else do
        let value ← decodeValue levels value
        let rest ← decodeItems levels rest
        .ok (value :: rest)

def decodeMembers (levels : Nat) (held : List (String × Json)) :
    Members → Except Fault (List (String × Json))
  | .close => .ok held
  | .stop next => .error (stopInObject next)
  | .keyless next => .error (stopBeforeKey next)
  | .unpaired key next => do
      let _ ← key.meaning
      .error (stopAfterKey next)
  | .member key value rest => do
      let name ← key.meaning
      let value ← decodeValue levels value
      decodeMembers levels (putMember name value held) rest

end

namespace Decoder

variable {α : Type}

def string : Decoder String
  | _, .string text => text.meaning
  | _, source => .error (source.mismatch "a string")

def bool : Decoder Bool
  | _, .bool value => .ok value
  | _, source => .error (source.mismatch "a boolean")

/-- A number without fraction and exponent that lies in the range of a word type. -/
def integer (kind : String) (ofInt? : Int → Option α) : Decoder α
  | _, .number (some (.integer value ..)) =>
      match ofInt? value with
      | some word => .ok word
      | none => .error (.wrongInteger value kind)
  | _, source => .error (source.mismatch kind)

def word (kind : String) : Decoder UInt64 := integer kind wordOfInt?

def viewId : Decoder Int32 := integer "i32" viewIdOfInt?

/-- Read one item after the other up to the closing bracket. -/
def items (decode : Decoder α) (levels : Nat) : Items → Except Fault (List α)
  | .close => .ok []
  | .stop next => .error (stopInList next)
  | .item value rest =>
      if value.isLoneBracket then .error .trailingComma
      else do
        let value ← decode levels value
        let rest ← items decode levels rest
        .ok (value :: rest)

def list (decode : Decoder α) : Decoder (List α)
  | 0, .list _ => .error .tooDeep
  | levels + 1, .list content => items decode levels content
  | _, source => .error (source.mismatch "a sequence")

/-- `null` stands for an absent value, at every place where the value itself may stand. -/
def option (decode : Decoder α) : Decoder (Option α)
  | _, .null => .ok none
  | levels, source => some <$> decode levels source

/-- A key that is a view id: there has to be a number and nothing else between the marks. -/
def viewIdKey (key : Quoted) : Except Fault Int32 :=
  match key.body with
  | [] => .error .keyNotNumber
  | c :: _ =>
      if c = '-' ∨ c.isDigit then do
        let (source, rest) := Source.scanNumber (key.body ++ if key.closed then ['"'] else [])
        let id ← viewId 0 source
        if rest = ['"'] then .ok id else .error .quoteExpected
      else .error .keyNotNumber

/-- Read one member after the other, with view ids for keys. -/
def viewMembers (decode : Decoder α) (levels : Nat) : Members → Except Fault (List (Int32 × α))
  | .close => .ok []
  | .stop next => .error (stopInObject next)
  | .keyless next => .error (stopBeforeKey next)
  | .unpaired key next => do
      let _ ← viewIdKey key
      .error (stopAfterKey next)
  | .member key value rest => do
      let id ← viewIdKey key
      let value ← decode levels value
      let rest ← viewMembers decode levels rest
      .ok ((id, value) :: rest)

/-- An object whose keys are view ids, as the list of its members. -/
def byViewId (decode : Decoder α) : Decoder (List (Int32 × α))
  | 0, .object _ => .error .tooDeep
  | levels + 1, .object members => viewMembers decode levels members
  | _, source => .error (source.mismatch "a map")

end Decoder
end NoteForm.Json
