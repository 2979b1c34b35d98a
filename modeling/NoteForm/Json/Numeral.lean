import NoteForm.Json.Basic

/-! Numbers as they are written: an integer part without superfluous zeros, perhaps a fraction,
perhaps an exponent. -/
namespace NoteForm.Json

/-- The parts of a number that is written correctly. -/
structure Numeral where
  negative : Bool
  whole : List Char
  fraction : Option (List Char)
  /-- Whether the exponent is negative, and its digits. -/
  exponent : Option (Bool × List Char)
deriving DecidableEq, Repr

namespace Numeral

def digitValue (c : Char) : Nat := c.toNat - '0'.toNat

/-- A significand of 64 bits and the power of ten it is to be multiplied by. -/
structure Accumulated where
  significand : Nat
  exponent : Int
deriving DecidableEq, Repr

/-- Take in digits as long as the significand fits 64 bits. The first digit that does not fit and
all behind it are dropped; `perDropped` and `perTaken` tell what a digit does to the exponent. -/
def accumulate (perTaken perDropped : Int) : Accumulated → List Char → Accumulated
  | held, [] => held
  | held, c :: rest =>
      let significand := 10 * held.significand + digitValue c
      if significand < 0x10000000000000000 then
        accumulate perTaken perDropped ⟨significand, held.exponent + perTaken⟩ rest
      else ⟨held.significand, held.exponent + perDropped * (rest.length + 1)⟩

/-- Multiply by a power of ten in doubles: one multiplication or division if the power itself is a
double, else divisions by `10 ^ 308` first. None if the product is too large. `steps` bounds their
number; three of them bring every significand down to zero. -/
def scale (steps : Nat) (f : Float) (exponent : Int) : Option Float :=
  if exponent.natAbs ≤ 308 then
    let power := Float.ofScientific 1 false exponent.natAbs
    let scaled := if 0 ≤ exponent then f * power else f / power
    if scaled.isInf then none else some scaled
  else if f == 0.0 then some f
  else if 0 ≤ exponent then none
  else match steps with
    | 0 => some 0.0
    | steps + 1 => scale steps (f / Float.ofScientific 1 false 308) (exponent + 308)

/-- The double of a numeral. The significand is rounded before it is scaled, so the result need
not be the double nearest to the number written. None if it is too large. -/
def double? (numeral : Numeral) : Option UInt64 :=
  let whole := accumulate 0 1 ⟨0, 0⟩ numeral.whole
  let held := accumulate (-1) 0 whole (numeral.fraction.getD [])
  let written : Int := match numeral.exponent with
    | none => 0
    | some (negative, digits) =>
        let magnitude : Int := Nat.ofDigitChars 10 digits 0
        if negative then -magnitude else magnitude
  let f? := scale 3 (UInt64.ofNat held.significand).toFloat (held.exponent + written)
  f?.map fun f => (if numeral.negative then -f else f).toBits

/-- The number a numeral stands for; none if it is out of range. What has no fraction and no
exponent is an integer if it fits 64 bits. Minus zero does not count as an integer. -/
def number? (numeral : Numeral) : Option Number :=
  let magnitude := Nat.ofDigitChars 10 numeral.whole 0
  let value : Int := if numeral.negative then -magnitude else magnitude
  if numeral.fraction.isNone ∧ numeral.exponent.isNone ∧
      ¬(numeral.negative ∧ magnitude = 0) then
    if h : -0x8000000000000000 ≤ value ∧ value < 0x10000000000000000 then
      some (.integer value h.1 h.2)
    else numeral.double?.map .double
  else numeral.double?.map .double

/-- Why a text that begins like a number is none: it ends too soon, or another character stands in
the place of a digit. -/
inductive Defect where
  | cutShort
  | malformed
deriving DecidableEq, Repr

def defectAt (text : List Char) : Defect :=
  if text.isEmpty then .cutShort else .malformed

/-- Take one or more digits off a text. -/
def scanDigits (text : List Char) : Except Defect (List Char × List Char) :=
  let digits := text.takeWhile Char.isDigit
  if digits.isEmpty then .error (defectAt text) else .ok (digits, text.dropWhile Char.isDigit)

def scanWhole (text : List Char) : Except Defect (List Char × List Char) :=
  match text with
  | '0' :: rest =>
      if (rest.head?.map Char.isDigit).getD false then .error .malformed else .ok (['0'], rest)
  | _ => scanDigits text

def scanFraction (text : List Char) : Except Defect (Option (List Char) × List Char) :=
  match text with
  | '.' :: rest => do
      let (digits, rest) ← scanDigits rest
      .ok (some digits, rest)
  | _ => .ok (none, text)

def scanExponent (text : List Char) : Except Defect (Option (Bool × List Char) × List Char) :=
  match text with
  | 'e' :: '-' :: rest | 'E' :: '-' :: rest => do
      let (digits, rest) ← scanDigits rest
      .ok (some (true, digits), rest)
  | 'e' :: '+' :: rest | 'E' :: '+' :: rest | 'e' :: rest | 'E' :: rest => do
      let (digits, rest) ← scanDigits rest
      .ok (some (false, digits), rest)
  | _ => .ok (none, text)

/-- Take a numeral off a text. -/
def scan (text : List Char) : Except Defect (Numeral × List Char) := do
  let (negative, rest) := match text with
    | '-' :: rest => (true, rest)
    | _ => (false, text)
  let (whole, rest) ← scanWhole rest
  let (fraction, rest) ← scanFraction rest
  let (exponent, rest) ← scanExponent rest
  .ok (⟨negative, whole, fraction, exponent⟩, rest)

end Numeral
end NoteForm.Json
