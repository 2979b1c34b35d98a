import NoteForm.Json.Fault

/-! Strings between quotation marks. -/
namespace NoteForm.Json

def hexDigit (n : Nat) : Char := Nat.digitChar (n % 16)

/-- A quotation mark, a backslash and the characters below the blank are escaped, and no others. -/
def escapeChar (c : Char) : List Char :=
  if c = '"' then ['\\', '"']
  else if c = '\\' then ['\\', '\\']
  else if c = '\x08' then ['\\', 'b']
  else if c = '\x0c' then ['\\', 'f']
  else if c = '\n' then ['\\', 'n']
  else if c = '\r' then ['\\', 'r']
  else if c = '\t' then ['\\', 't']
  else if c < ' ' then ['\\', 'u', '0', '0', hexDigit (c.toNat / 16), hexDigit c.toNat]
  else [c]

def escape (text : List Char) : List Char := text.flatMap escapeChar

/-- How far an escape has been read. -/
inductive EscapeState where
  | outside
  | opened
  /-- `count` digits that amount to `value`, perhaps after the first half of a pair. -/
  | digits (high : Option Nat) (value count : Nat)
  | backslashDue (high : Nat)
  | letterDue (high : Nat)

def hexValue? (c : Char) : Option Nat :=
  if '0' ≤ c ∧ c ≤ '9' then some (c.toNat - '0'.toNat)
  else if 'a' ≤ c ∧ c ≤ 'f' then some (c.toNat - 'a'.toNat + 10)
  else if 'A' ≤ c ∧ c ≤ 'F' then some (c.toNat - 'A'.toNat + 10)
  else none

/-- The character for the letter of a short escape. -/
def shortEscape? (letter : Char) : Option Char :=
  if letter = '"' ∨ letter = '\\' ∨ letter = '/' then some letter
  else if letter = 'b' then some '\x08'
  else if letter = 'f' then some '\x0c'
  else if letter = 'n' then some '\n'
  else if letter = 'r' then some '\r'
  else if letter = 't' then some '\t'
  else none

def isHighSurrogate (unit : Nat) : Bool := 0xD800 ≤ unit ∧ unit < 0xDC00

def isLowSurrogate (unit : Nat) : Bool := 0xDC00 ≤ unit ∧ unit < 0xE000

def utf8Length (text : List Char) : Nat := text.foldr (fun c length => c.utf8Size + length) 0

/-- What is wrong when a digit is missing: the text ends before the place of the fourth digit, or
something else stands there. -/
def digitFault (bytesLeft : Nat) : Fault :=
  if bytesLeft < 4 then .endInString else .invalidEscape

/-- Undo the escapes of a string whose body is followed by `after` bytes of text, its closing mark
included. Without a closing mark nothing follows the body. If `paired`, surrogates have to come in
pairs; otherwise each unit counts for itself and the outcome is only good for its faults. -/
def unescape (paired : Bool) (after : Nat) : EscapeState → List Char → Except Fault (List Char)
  | .outside, [] => if after = 0 then .error .endInString else .ok []
  | .digits _ _ count, [] => .error (digitFault (count + after))
  | .backslashDue _, [] =>
      .error (if after = 0 then .endInString else .surrogateEndExpected)
  | .opened, [] | .letterDue _, [] => .error .endInString
  | .outside, c :: rest =>
      if c = '\\' then unescape paired after .opened rest
      else if c < ' ' then .error .controlCharacter
      else (c :: ·) <$> unescape paired after .outside rest
  | .opened, c :: rest =>
      if c = 'u' then unescape paired after (.digits none 0 0) rest
      else match shortEscape? c with
        | some meant => (meant :: ·) <$> unescape paired after .outside rest
        | none => .error .invalidEscape
  | .digits high value count, c :: rest =>
      match hexValue? c with
      | none => .error (digitFault (count + utf8Length (c :: rest) + after))
      | some digit =>
          let unit := 16 * value + digit
          if count < 3 then unescape paired after (.digits high unit (count + 1)) rest
          else match high with
            | none =>
                if paired && isLowSurrogate unit then .error .loneSurrogate
                else if paired && isHighSurrogate unit then
                  unescape paired after (.backslashDue unit) rest
                else (Char.ofNat unit :: ·) <$> unescape paired after .outside rest
            | some first =>
                if isLowSurrogate unit then
                  (Char.ofNat (0x10000 + (first - 0xD800) * 0x400 + (unit - 0xDC00)) :: ·) <$>
                    unescape paired after .outside rest
                else .error .loneSurrogate
  | .backslashDue high, c :: rest =>
      if c = '\\' then unescape paired after (.letterDue high) rest
      else .error .surrogateEndExpected
  | .letterDue high, c :: rest =>
      if c = 'u' then unescape paired after (.digits (some high) 0 0) rest
      else .error .surrogateEndExpected

/-- A string as it stands in a text: its body, whether a closing mark follows, what it means, and
whether it may be passed over. -/
structure Quoted where
  body : List Char
  closed : Bool
  meaning : Except Fault String
  skim : Except Fault Unit

namespace Quoted

/-- The string with this meaning as it is written. -/
def ofString (text : String) : Quoted := ⟨escape text.toList, true, .ok text, .ok ()⟩

/-- Divide a text at the first quotation mark that is not escaped. -/
def divide : (escaped : Bool) → List Char → List Char × List Char
  | _, [] => ([], [])
  | escaped, c :: rest =>
      if c = '"' ∧ !escaped then ([], c :: rest)
      else
        let (body, remainder) := divide (!escaped && decide (c = '\\')) rest
        (c :: body, remainder)

/-- Take a string off a text that stands behind an opening mark. -/
def scan (text : List Char) : Quoted × List Char :=
  let (body, remainder) := divide false text
  let after := utf8Length (remainder.take 4)
  (⟨body, !remainder.isEmpty, String.ofList <$> unescape true after .outside body,
    (fun _ => ()) <$> unescape false after .outside body⟩, remainder.drop 1)

end Quoted
end NoteForm.Json
