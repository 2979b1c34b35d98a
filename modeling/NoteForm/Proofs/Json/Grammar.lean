import Mathlib.Data.List.Forall2
import NoteForm.Json.Source

/-! The rules of JSON texts, said of the characters alone and not of a reader. Numbers may be out of
range and strings may have surrogates without a partner; such texts break no rule, though no value is
read from them. -/
namespace NoteForm.Json

/-- Nothing but blanks, tabs and line breaks. -/
def Blank (text : List Char) : Prop := ∀ c ∈ text, Source.isBlank c = true

/-- Four hexadecimal digits and the number they amount to. -/
inductive CodeUnit : Nat → List Char → Prop where
  | digits {a b c d : Char} {i j k l : Nat} (ha : hexValue? a = some i)
      (hb : hexValue? b = some j) (hc : hexValue? c = some k) (hd : hexValue? d = some l) :
      CodeUnit (16 * (16 * (16 * i + j) + k) + l) [a, b, c, d]

/-- What may stand between the marks of a string. -/
inductive IsBody : List Char → Prop where
  | nil : IsBody []
  | plain {c : Char} {body : List Char} (hQuote : c ≠ '"') (hBackslash : c ≠ '\\')
      (hVisible : ¬c < ' ') (rest : IsBody body) : IsBody (c :: body)
  | short {letter meant : Char} {body : List Char} (hMeant : shortEscape? letter = some meant)
      (rest : IsBody body) : IsBody ('\\' :: letter :: body)
  | unit {n : Nat} {digits body : List Char} (hUnit : CodeUnit n digits) (rest : IsBody body) :
      IsBody ('\\' :: 'u' :: (digits ++ body))

/-- The text that the body of a string stands for. Characters beyond the first sixteen bits are
escaped as a pair of surrogates, and a surrogate by itself stands for nothing. -/
inductive Spells : (text body : List Char) → Prop where
  | nil : Spells [] []
  | plain {c : Char} {text body : List Char} (hQuote : c ≠ '"') (hBackslash : c ≠ '\\')
      (hVisible : ¬c < ' ') (rest : Spells text body) : Spells (c :: text) (c :: body)
  | short {letter meant : Char} {text body : List Char}
      (hMeant : shortEscape? letter = some meant) (rest : Spells text body) :
      Spells (meant :: text) ('\\' :: letter :: body)
  | unit {n : Nat} {digits text body : List Char} (hUnit : CodeUnit n digits)
      (hLow : isLowSurrogate n = false) (hHigh : isHighSurrogate n = false)
      (rest : Spells text body) :
      Spells (Char.ofNat n :: text) ('\\' :: 'u' :: (digits ++ body))
  | pair {high low : Nat} {first second text body : List Char} (hFirst : CodeUnit high first)
      (hSecond : CodeUnit low second) (hHigh : isHighSurrogate high = true)
      (hLow : isLowSurrogate low = true) (rest : Spells text body) :
      Spells (Char.ofNat (0x10000 + (high - 0xD800) * 0x400 + (low - 0xDC00)) :: text)
        ('\\' :: 'u' :: (first ++ '\\' :: 'u' :: (second ++ body)))

/-- At least one digit, and nothing else. -/
structure IsDigits (text : List Char) : Prop where
  nonempty : text ≠ []
  isDigit : ∀ c ∈ text, c.isDigit = true

/-- The integer part of a number: digits, with no zero in front of another digit. -/
structure IsWhole (text : List Char) : Prop extends IsDigits text where
  first : text = ['0'] ∨ text.head? ≠ some '0'

inductive IsFraction : List Char → Prop where
  | absent : IsFraction []
  | present {digits : List Char} (h : IsDigits digits) : IsFraction ('.' :: digits)

inductive IsExponent : List Char → Prop where
  | absent : IsExponent []
  | present {mark : Char} {sign digits : List Char} (hMark : mark = 'e' ∨ mark = 'E')
      (hSign : sign = [] ∨ sign = ['+'] ∨ sign = ['-']) (h : IsDigits digits) :
      IsExponent (mark :: (sign ++ digits))

inductive IsNumber : List Char → Prop where
  | parts {sign whole fraction exponent : List Char} (hSign : sign = [] ∨ sign = ['-'])
      (hWhole : IsWhole whole) (hFraction : IsFraction fraction)
      (hExponent : IsExponent exponent) : IsNumber (sign ++ (whole ++ (fraction ++ exponent)))

/-- A piece of text with blanks around it. -/
inductive Padded (piece : List Char) : List Char → Prop where
  | blanks {before after : List Char} (hBefore : Blank before) (hAfter : Blank after) :
      Padded piece (before ++ (piece ++ after))

/-- Pieces with a comma between any two of them. -/
inductive Separated : List (List Char) → List Char → Prop where
  | last {piece text : List Char} (h : Padded piece text) : Separated [piece] text
  | more {piece text behind : List Char} {pieces : List (List Char)} (h : Padded piece text)
      (rest : Separated pieces behind) : Separated (piece :: pieces) (text ++ ',' :: behind)

theorem Blank.append {text other : List Char} (h : Blank text) (hOther : Blank other) :
    Blank (text ++ other) :=
  List.forall_mem_append.2 ⟨h, hOther⟩

/-- Blanks in front of a piece belong to the blanks around it. -/
theorem Padded.append_blanks {piece text blanks : List Char} (h : Padded piece text)
    (hBlanks : Blank blanks) : Padded piece (blanks ++ text) := by
  cases h with
  | blanks hBefore hAfter =>
      rw [← List.append_assoc]
      exact .blanks (hBlanks.append hBefore) hAfter

theorem Separated.append_blanks {pieces : List (List Char)} {text blanks : List Char}
    (h : Separated pieces text) (hBlanks : Blank blanks) : Separated pieces (blanks ++ text) := by
  cases h with
  | last hPiece => exact .last (hPiece.append_blanks hBlanks)
  | more hPiece rest =>
      rw [← List.append_assoc]
      exact .more (hPiece.append_blanks hBlanks) rest

/-- Pieces between brackets, perhaps none. -/
inductive Enclosed (left right : Char) : List (List Char) → List Char → Prop where
  | none {blanks : List Char} (h : Blank blanks) :
      Enclosed left right [] (left :: (blanks ++ [right]))
  | some {pieces : List (List Char)} {inner : List Char} (h : Separated pieces inner) :
      Enclosed left right pieces (left :: (inner ++ [right]))

/-- A key with its marks, a colon and a value. -/
inductive MemberText (key value : List Char) : List Char → Prop where
  | colon {before after : List Char} (hBefore : Blank before) (hAfter : Blank after) :
      MemberText key value ('"' :: (key ++ '"' :: (before ++ ':' :: (after ++ value))))

/-- A text that keeps to the rules, without blanks around it. -/
inductive IsJson : List Char → Prop where
  | null : IsJson ['n', 'u', 'l', 'l']
  | true : IsJson ['t', 'r', 'u', 'e']
  | false : IsJson ['f', 'a', 'l', 's', 'e']
  | number {text : List Char} (h : IsNumber text) : IsJson text
  | string {body : List Char} (h : IsBody body) : IsJson ('"' :: (body ++ ['"']))
  | list {items : List (List Char)} {text : List Char} (hText : Enclosed '[' ']' items text)
      (hItems : ∀ item ∈ items, IsJson item) : IsJson text
  | object {members : List (List Char × List Char)} {pieces : List (List Char)}
      {text : List Char}
      (hPieces : List.Forall₂ (fun member piece => MemberText member.1 member.2 piece) members pieces)
      (hText : Enclosed '{' '}' pieces text) (hKeys : ∀ member ∈ members, IsBody member.1)
      (hValues : ∀ member ∈ members, IsJson member.2) : IsJson text

/-- A whole text that keeps to the rules. -/
def IsDocument (text : String) : Prop := ∃ own, IsJson own ∧ Padded own text.toList

/-- The text of a string with its marks. -/
def StringText (text : String) (own : List Char) : Prop :=
  ∃ body, Spells text.toList body ∧ own = '"' :: (body ++ ['"'])

/-- The text of a list whose items have these texts. -/
structure ListText (items : List (List Char)) (own : List Char) : Prop where
  enclosed : Enclosed '[' ']' items own
  items : ∀ item ∈ items, IsJson item

/-- The text of an object whose members have these names, with the texts of their values. Each name
may be spelled in any way, and each value keeps to the rules. -/
structure ObjectText (members : List (String × List Char)) (own : List Char) : Prop where
  enclosed : ∃ pieces, Enclosed '{' '}' pieces own ∧
    List.Forall₂ (fun member piece => ∃ key, Spells member.1.toList key ∧
      MemberText key member.2 piece) members pieces
  values : ∀ member ∈ members, IsJson member.2

end NoteForm.Json
