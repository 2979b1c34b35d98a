import NoteForm.Json.Quoted

/-! Writing values. -/
namespace NoteForm.Json

/-- Where a text is broken into lines and what separates a name from its value. -/
structure Layout where
  /-- The break in front of whatever stands `level` lists and objects deep. -/
  lineBreak : (level : Nat) → List Char
  colon : List Char

/-- One item or member to a line, indented by two blanks a level. -/
def Layout.pretty : Layout :=
  ⟨fun level => '\n' :: List.replicate (2 * level) ' ', [':', ' ']⟩

/-- Everything in one line without a blank. -/
def Layout.compact : Layout := ⟨fun _ => [], [':']⟩

def renderString (text : String) : List Char := '"' :: escape text.toList ++ ['"']

def renderNumber : Number → List Char
  | .integer value .. => Decimal.ofInt value
  | .double bits => Decimal.ofDouble bits

mutual

/-- The text of a value that stands `level` lists and objects deep. Members are written in the
order they have. -/
def render (layout : Layout) (level : Nat) : Json → List Char
  | .null => ['n', 'u', 'l', 'l']
  | .bool true => ['t', 'r', 'u', 'e']
  | .bool false => ['f', 'a', 'l', 's', 'e']
  | .number value => renderNumber value
  | .string value => renderString value
  | .array [] => ['[', ']']
  | .array (item :: rest) =>
      '[' :: layout.lineBreak (level + 1) ++ render layout (level + 1) item ++
        renderItems layout (level + 1) rest ++ layout.lineBreak level ++ [']']
  | .object [] => ['{', '}']
  | .object ((name, value) :: rest) =>
      '{' :: layout.lineBreak (level + 1) ++ renderString name ++ layout.colon ++
        render layout (level + 1) value ++ renderMembers layout (level + 1) rest ++
        layout.lineBreak level ++ ['}']

/-- The items behind the first, each after a comma. -/
def renderItems (layout : Layout) (level : Nat) : List Json → List Char
  | [] => []
  | item :: rest =>
      ',' :: layout.lineBreak level ++ render layout level item ++ renderItems layout level rest

/-- The members behind the first, each after a comma. -/
def renderMembers (layout : Layout) (level : Nat) : List (String × Json) → List Char
  | [] => []
  | (name, value) :: rest =>
      ',' :: layout.lineBreak level ++ renderString name ++ layout.colon ++
        render layout level value ++ renderMembers layout level rest

end

/-- The text of a value as it is kept in files: laid out in lines, without a line break at the
end. -/
def pretty (value : Json) : String := String.ofList (value.render .pretty 0)

def compact (value : Json) : String := String.ofList (value.render .compact 0)

end NoteForm.Json
