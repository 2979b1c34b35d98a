import NoteForm.Decimal.Shortest

/-! Numbers in decimal text. -/
namespace NoteForm.Decimal

/-- An integer: a minus sign if it is negative, and no superfluous zero. -/
def ofInt : Int → List Char
  | .ofNat n => Nat.toDigits 10 n
  | .negSucc n => '-' :: Nat.toDigits 10 (n + 1)

/-- Where a decimal is written with a plain point. Outside, an exponent follows the digits. -/
structure PlainRange where
  lowest : Int
  highest : Int

/-- Doubles are written plainly while their leading digit stands between the fifth place behind
the point and the sixteenth in front of it. -/
def plainDoubles : PlainRange := ⟨-5, 15⟩

/-- Plain notation with at least one digit on each side of the point, which stands `point` places
behind the first digit. -/
def plain (digits : List Char) (point : Int) : List Char :=
  if point ≤ 0 then '0' :: '.' :: List.replicate (-point).toNat '0' ++ digits
  else
    let whole := digits.take point.toNat
    let fraction := digits.drop point.toNat
    whole ++ List.replicate (point.toNat - whole.length) '0' ++ '.' ::
      (if fraction.isEmpty then ['0'] else fraction)

/-- The first digit, a point and the others if there are any, and the exponent with its sign. -/
def scientific (digits : List Char) (exponent : Int) : List Char :=
  digits.take 1 ++ (if digits.length ≤ 1 then [] else '.' :: digits.drop 1) ++ 'e' ::
    (if exponent < 0 then ofInt exponent else '+' :: ofInt exponent)

/-- A finite double by its shortest digits. Zero keeps its sign. -/
def ofDouble (bits : UInt64) : List Char :=
  let decimal := shortest bits
  let digits := Nat.toDigits 10 decimal.digits
  let point := (digits.length : Int) + decimal.exponent
  let written :=
    if plainDoubles.lowest ≤ point - 1 ∧ point - 1 ≤ plainDoubles.highest then plain digits point
    else scientific digits (point - 1)
  if isNegative bits then '-' :: written else written

end NoteForm.Decimal
