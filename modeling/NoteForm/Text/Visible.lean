import NoteForm.Text.Unprintable

/-! A text between quotation marks, with everything that cannot be seen spelled out. -/
namespace NoteForm.Text.Visible

/-- A backslash and the letter or the braced code point that stands for the character, or the
character itself if it can be seen. -/
def ofChar (c : Char) : List Char :=
  if c = '\x00' then ['\\', '0']
  else if c = '\t' then ['\\', 't']
  else if c = '\n' then ['\\', 'n']
  else if c = '\r' then ['\\', 'r']
  else if c = '"' ∨ c = '\\' then ['\\', c]
  else if isUnprintable c then ['\\', 'u', '{'] ++ Nat.toDigits 16 c.toNat ++ ['}']
  else [c]

def quoted (text : String) : String :=
  String.ofList ('"' :: text.toList.flatMap ofChar ++ ['"'])

end NoteForm.Text.Visible
