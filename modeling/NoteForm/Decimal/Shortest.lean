/-! The shortest decimal that reads back as a given double.

A finite double is the nearest one to every real number of an interval around it. Going from
coarse to fine powers of ten, the first grid that has a point in that interval gives the fewest
digits; of the points of that grid the nearest to the double is taken. -/
namespace NoteForm.Decimal

/-- The decimal number `digits * 10 ^ exponent`. -/
structure Scaled where
  digits : Nat
  exponent : Int
deriving DecidableEq, Repr

/-- A finite double without its sign: `significand * 2 ^ exponent`. The half unit below the first
significand of a binade is only half as wide as the one above it. -/
structure Magnitude where
  significand : Nat
  exponent : Int
  atBinadeStart : Bool
deriving DecidableEq, Repr

def isNegative (bits : UInt64) : Bool := bits >>> 63 = 1

/-- Take the bits of a double apart. The lowest exponent field has no implicit leading bit. -/
def magnitude (bits : UInt64) : Magnitude :=
  let fraction := (bits &&& 0xFFFFFFFFFFFFF).toNat
  let field := ((bits >>> 52) &&& 0x7FF).toNat
  if field = 0 then ⟨fraction, -1074, false⟩
  else ⟨fraction + 0x10000000000000, (field : Int) - 1075, fraction = 0 ∧ 1 < field⟩

/-- The interval of numbers that read back as a magnitude, and the magnitude itself, all over the
common denominator `scale`. The ends belong to it if `closed`. -/
structure Interval where
  low : Nat
  value : Nat
  high : Nat
  scale : Nat
  closed : Bool
deriving DecidableEq, Repr

def Magnitude.interval (m : Magnitude) : Interval :=
  let up := Nat.pow 2 m.exponent.toNat
  { low := (4 * m.significand - (if m.atBinadeStart then 1 else 2)) * up
    value := 4 * m.significand * up
    high := (4 * m.significand + 2) * up
    scale := 4 * Nat.pow 2 (-m.exponent).toNat
    closed := m.significand % 2 = 0 }

/-- Whether `digits * 10 ^ exponent` lies in the interval. -/
def Interval.contains (i : Interval) (decimal : Scaled) : Bool :=
  let point := decimal.digits * Nat.pow 10 decimal.exponent.toNat * i.scale
  let shift := Nat.pow 10 (-decimal.exponent).toNat
  if i.closed then i.low * shift ≤ point ∧ point ≤ i.high * shift
  else i.low * shift < point ∧ point < i.high * shift

/-- The point of the grid of multiples of `10 ^ exponent` that stands for the interval: one of the
two neighbours of its value, the nearer one if both lie inside, the even one if both are equally
near. -/
def Interval.onGrid? (i : Interval) (exponent : Int) : Option Scaled :=
  let numerator := i.value * Nat.pow 10 (-exponent).toNat
  let unit := i.scale * Nat.pow 10 exponent.toNat
  let below : Scaled := ⟨numerator / unit, exponent⟩
  let above : Scaled := ⟨numerator / unit + 1, exponent⟩
  let excess := 2 * (numerator % unit)
  let preferAbove := unit < excess ∨ (excess = unit ∧ below.digits % 2 = 1)
  match i.contains below, i.contains above with
  | true, true => some (if preferAbove then above else below)
  | true, false => some below
  | false, true => some above
  | false, false => none

/-- Search the grids from `10 ^ exponent` downwards. -/
def Interval.search (i : Interval) : (grids : Nat) → (exponent : Int) → Option Scaled
  | 0, _ => none
  | grids + 1, exponent =>
      match i.onGrid? exponent with
      | some decimal => some decimal
      | none => i.search grids (exponent - 1)

/-- The shortest decimal for the magnitude of a finite double. No double reaches `10 ^ 309`, and
every double is a multiple of `10 ^ -1074`. -/
def shortest (bits : UInt64) : Scaled :=
  let m := magnitude bits
  if m.significand = 0 then ⟨0, 0⟩
  else ((m.interval.search 1384 309).getD ⟨0, 0⟩)

end NoteForm.Decimal
