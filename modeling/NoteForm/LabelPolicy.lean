/-! How a field that has been carried over from another note type is labelled. -/
namespace NoteForm

/-- Labels name the old field only if the old note had more than `minOldFields` fields; they are
then made from `template`. -/
structure LabelPolicy where
  minOldFields : UInt64
  template : String
deriving DecidableEq, Repr

namespace LabelPolicy

/-- The policy in force as long as none has been stored. -/
def standard : LabelPolicy where
  minOldFields := 2
  template := "\x7bnew\x7d (was: \x7bold\x7d)"

instance : Inhabited LabelPolicy := ⟨standard⟩

/-- Whether labels name the old field when the old note had `oldCount` fields. -/
def namesOldFields (policy : LabelPolicy) (oldCount : Nat) : Bool :=
  policy.minOldFields.toNat < oldCount

/-- How the place of the name of the new field is marked in a template. -/
def newMark : List Char := ['{', 'n', 'e', 'w', '}']

def oldMark : List Char := ['{', 'o', 'l', 'd', '}']

/-- Go through what is left of a template and write on behind the label made so far: all that stands
before the next brace, and then a name if the brace opens a mark. Names are put in as they are and not
looked at again. A brace that opens no mark stands for itself. -/
def fillIn (newName oldName label template : List Char) : List Char :=
  let before := template.takeWhile (· ≠ '{')
  let rest := template.dropWhile (· ≠ '{')
  if rest = [] then label ++ before
  else if newMark.isPrefixOf rest then
    fillIn newName oldName (label ++ before ++ newName) (rest.drop newMark.length)
  else if oldMark.isPrefixOf rest then
    fillIn newName oldName (label ++ before ++ oldName) (rest.drop oldMark.length)
  else fillIn newName oldName (label ++ before ++ ['{']) rest.tail
termination_by template.length
decreasing_by
  -- Something is left from the brace on, and the marks are not empty.
  all_goals
    have hRest : 0 < (template.dropWhile (· ≠ '{')).length := List.length_pos_iff.2 ‹_›
    have hTemplate := (List.dropWhile_sublist (l := template) (· ≠ '{')).length_le
    simp only [List.length_drop, List.length_tail, newMark, oldMark, List.length_cons,
      List.length_nil]
    omega

def label (policy : LabelPolicy) (newName oldName : String) : String :=
  String.ofList (fillIn newName.toList oldName.toList [] policy.template.toList)

end LabelPolicy
end NoteForm
