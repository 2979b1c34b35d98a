/-! Why the file system refuses an operation. -/
namespace NoteForm.Files

inductive Fault where
  | notFound
  | fileExists
  | notDirectory
  | isDirectory
  | nameTooLong
  | zeroInName
  | notUtf8
  /-- A refusal of another kind, known by its text alone. -/
  | other (text : String)
deriving DecidableEq, Repr

def Fault.message : Fault → String
  | .notFound => "No such file or directory (os error 2)"
  | .fileExists => "File exists (os error 17)"
  | .notDirectory => "Not a directory (os error 20)"
  | .isDirectory => "Is a directory (os error 21)"
  | .nameTooLong => "File name too long (os error 36)"
  | .zeroInName => "file name contained an unexpected NUL byte"
  | .notUtf8 => "stream did not contain valid UTF-8"
  | .other text => text

end NoteForm.Files
