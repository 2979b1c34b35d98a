import NoteForm.Json.Quoted
import NoteForm.Json.Numeral

/-! The form of a JSON text. A text is first divided into values, items and members without asking
what kind of value is expected where. Every text has such a form; where the text breaks the rules,
the form says how, and whoever reads the form decides which of its faults is met first. -/
namespace NoteForm.Json

mutual

/-- What stands in the place of a value. -/
inductive Source where
  /-- The end of the text or a character with which no value begins. -/
  | missing (next : Option Char)
  | null
  | bool (value : Bool)
  /-- A word that ends too soon or continues wrongly. -/
  | misspelt (defect : Numeral.Defect)
  /-- A number, if it is in range. -/
  | number (value : Option Number)
  | misnumbered (defect : Numeral.Defect)
  | string (text : Quoted)
  | list (items : Items)
  | object (members : Members)

/-- What stands behind the opening bracket of a list or behind one of its items. -/
inductive Items where
  | close
  /-- The end of the text, or something else in the place of a comma. -/
  | stop (next : Option Char)
  | item (value : Source) (rest : Items)

/-- What stands behind the opening brace of an object or behind one of its members. -/
inductive Members where
  | close
  /-- The end of the text, or something else in the place of a comma. -/
  | stop (next : Option Char)
  /-- Something else in the place of a key. -/
  | keyless (next : Option Char)
  /-- Something else in the place of a colon. -/
  | unpaired (key : Quoted) (next : Option Char)
  | member (key : Quoted) (value : Source) (rest : Members)

end

instance : Inhabited Source := ⟨.null⟩

namespace Source

def isBlank (c : Char) : Bool := c = ' ' ∨ c = '\n' ∨ c = '\t' ∨ c = '\r'

def skipBlanks (text : List Char) : List Char := text.dropWhile isBlank

/-- Take the rest of a word off a text, and say what it is or how it fails. -/
def scanWord (meaning : Source) : (word text : List Char) → Source × List Char
  | [], text => (meaning, text)
  | _ :: _, [] => (.misspelt .cutShort, [])
  | c :: word, d :: text =>
      if c = d then scanWord meaning word text else (.misspelt .malformed, d :: text)

def scanNumber (text : List Char) : Source × List Char :=
  match Numeral.scan text with
  | .ok (numeral, rest) => (.number numeral.number?, rest)
  | .error defect => (.misnumbered defect, text)

mutual

/-- Take a value off a text. -/
def scanValue : (fuel : Nat) → List Char → Source × List Char
  | 0, text => (.missing none, text)
  | fuel + 1, text =>
      match skipBlanks text with
      | [] => (.missing none, [])
      | c :: rest =>
          if c = '[' then
            let (items, rest) := scanItems fuel rest
            (.list items, rest)
          else if c = '{' then
            let (members, rest) := scanMembers fuel rest
            (.object members, rest)
          else if c = '"' then
            let (text, rest) := Quoted.scan rest
            (.string text, rest)
          else if c = 'n' then scanWord .null ['u', 'l', 'l'] rest
          else if c = 't' then scanWord (.bool true) ['r', 'u', 'e'] rest
          else if c = 'f' then scanWord (.bool false) ['a', 'l', 's', 'e'] rest
          else if c = '-' ∨ c.isDigit then scanNumber (c :: rest)
          else (.missing (some c), c :: rest)

/-- Take the items of a list off a text that stands behind the opening bracket. -/
def scanItems : (fuel : Nat) → List Char → Items × List Char
  | 0, text => (.stop none, text)
  | fuel + 1, text =>
      match skipBlanks text with
      | [] => (.stop none, [])
      | c :: rest => if c = ']' then (.close, rest) else scanItem fuel (c :: rest)

/-- Take an item and what follows it off a text. -/
def scanItem : (fuel : Nat) → List Char → Items × List Char
  | 0, text => (.stop none, text)
  | fuel + 1, text =>
      let (value, rest) := scanValue fuel text
      match skipBlanks rest with
      | [] => (.item value (.stop none), [])
      | c :: rest =>
          if c = ']' then (.item value .close, rest)
          else if c = ',' then
            let (items, rest) := scanItem fuel rest
            (.item value items, rest)
          else (.item value (.stop (some c)), c :: rest)

/-- Take the members of an object off a text that stands behind the opening brace. -/
def scanMembers : (fuel : Nat) → List Char → Members × List Char
  | 0, text => (.stop none, text)
  | fuel + 1, text =>
      match skipBlanks text with
      | [] => (.stop none, [])
      | c :: rest => if c = '}' then (.close, rest) else scanMember fuel (c :: rest)

/-- Take a member and what follows it off a text. -/
def scanMember : (fuel : Nat) → List Char → Members × List Char
  | 0, text => (.stop none, text)
  | fuel + 1, text =>
      match skipBlanks text with
      | [] => (.keyless none, [])
      | c :: rest =>
          if c = '"' then
            let (key, rest) := Quoted.scan rest
            match skipBlanks rest with
            | [] => (.unpaired key none, [])
            | c :: rest =>
                if c = ':' then
                  let (value, rest) := scanValue fuel rest
                  match skipBlanks rest with
                  | [] => (.member key value (.stop none), [])
                  | c :: rest =>
                      if c = '}' then (.member key value .close, rest)
                      else if c = ',' then
                        let (members, rest) := scanMember fuel rest
                        (.member key value members, rest)
                      else (.member key value (.stop (some c)), c :: rest)
                else (.unpaired key (some c), c :: rest)
          else (.keyless (some c), c :: rest)

end

/-- The form of a text and what stands behind it. At most three levels of the scan take one
character off the text: a value, the inside of its bracket and the first item there. -/
def scan (text : List Char) : Source × List Char :=
  scanValue (3 * text.length + 1) text

end Source

mutual

/-- The form of a value that is written correctly. -/
def toSource : Json → Source
  | .null => .null
  | .bool value => .bool value
  | .number value => .number (some value)
  | .string value => .string (.ofString value)
  | .array items => .list (toItems items)
  | .object members => .object (toMembers members)

def toItems : List Json → Items
  | [] => .close
  | item :: rest => .item item.toSource (toItems rest)

def toMembers : List (String × Json) → Members
  | [] => .close
  | (name, value) :: rest => .member (.ofString name) value.toSource (toMembers rest)

end

end NoteForm.Json
