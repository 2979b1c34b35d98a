import NoteForm.Json.Basic
import NoteForm.Decimal.Notation
import NoteForm.Text.Visible

/-! Why a JSON text could not be read as a value of the expected kind. -/
namespace NoteForm.Json

/-- What stood in the place of an expected value. -/
inductive Found where
  | null
  | bool (value : Bool)
  | number (value : Number)
  | string (value : String)
  | list
  | object
deriving DecidableEq, Repr

def Found.text : Found → String
  | .null => "null"
  | .bool value => "boolean `" ++ toString value ++ "`"
  | .number (.integer value ..) => "integer `" ++ String.ofList (Decimal.ofInt value) ++ "`"
  | .number (.double bits) =>
      "floating point `" ++ String.ofList (Decimal.ofDouble bits) ++ "`"
  | .string value => "string " ++ Text.Visible.quoted value
  | .list => "sequence"
  | .object => "map"

inductive Fault where
  | endInValue
  | endInString
  | endInList
  | endInObject
  | valueExpected
  | wordExpected
  | colonExpected
  | listEndExpected
  | objectEndExpected
  | quoteExpected
  | invalidEscape
  | invalidNumber
  | numberOutOfRange
  | controlCharacter
  | keyNotString
  | keyNotNumber
  | loneSurrogate
  | surrogateEndExpected
  | trailingComma
  | trailingCharacters
  | tooDeep
  | wrongType (found : Found) (expected : String)
  | wrongInteger (value : Int) (expected : String)
  | missingMember (name : String)
  | repeatedMember (name : String)
  /-- A record written as a list ends after `length` items. -/
  | shortRecord (length : Nat) (record : String) (size : Nat)
deriving DecidableEq, Repr

def Fault.message : Fault → String
  | .endInValue => "EOF while parsing a value"
  | .endInString => "EOF while parsing a string"
  | .endInList => "EOF while parsing a list"
  | .endInObject => "EOF while parsing an object"
  | .valueExpected => "expected value"
  | .wordExpected => "expected ident"
  | .colonExpected => "expected `:`"
  | .listEndExpected => "expected `,` or `]`"
  | .objectEndExpected => "expected `,` or `\x7d`"
  | .quoteExpected => "expected `\"`"
  | .invalidEscape => "invalid escape"
  | .invalidNumber => "invalid number"
  | .numberOutOfRange => "number out of range"
  | .controlCharacter =>
      "control character (\\u0000-\\u001F) found while parsing a string"
  | .keyNotString => "key must be a string"
  | .keyNotNumber => "invalid value: expected key to be a number in quotes"
  | .loneSurrogate => "lone leading surrogate in hex escape"
  | .surrogateEndExpected => "unexpected end of hex escape"
  | .trailingComma => "trailing comma"
  | .trailingCharacters => "trailing characters"
  | .tooDeep => "recursion limit exceeded"
  | .wrongType found expected => "invalid type: " ++ found.text ++ ", expected " ++ expected
  | .wrongInteger value expected =>
      "invalid value: " ++ "integer `" ++ String.ofList (Decimal.ofInt value) ++
        "`, expected " ++ expected
  | .missingMember name => "missing field `" ++ name ++ "`"
  | .repeatedMember name => "duplicate field `" ++ name ++ "`"
  | .shortRecord length record size =>
      "invalid length " ++ toString length ++ ", expected struct " ++ record ++ " with " ++
        toString size ++ " elements"

end NoteForm.Json
