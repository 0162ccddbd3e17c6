-- Decimal text of double-precision numbers: the number nearest to a decimal,
-- the fewest digits that read back, and where the point goes.
import PipelineBoard.Number.Binary64
import PipelineBoard.Text.Blank
import PipelineBoard.Text.Digit

namespace PipelineBoard

namespace Decimal

/-! ## Reading -/

/-- How many digits a number has in base ten. -/
def width (n : Nat) : Nat := (Nat.toDigits 10 n).length

/-- The place of the magnitude nearest to `digits * 10 ^ exponent`. -/
def placeOf (digits : Nat) (exponent : Int) : Nat :=
  Binary64.nearestPlace (digits * Nat.pow 10 exponent.toNat * Binary64.unitsPerOne)
    (Nat.pow 10 (-exponent).toNat)

/-- The place of the magnitude nearest to `digits * 10 ^ exponent`, without
the large powers that a decimal far out of range would need. -/
def place (digits : Nat) (exponent : Int) : Nat :=
  if digits = 0 then 0
  else if 310 < exponent + width digits then infinityPlace
  else if exponent + width digits < -330 then 0
  else placeOf digits exponent

/-- The number nearest to `digits * 10 ^ exponent` with a sign. -/
def toBinary (negative : Bool) (digits : Nat) (exponent : Int) : Binary64 :=
  Binary64.ofPlace negative (place digits exponent)

/-- The number that a numeral writes: its digits before and after the point
and its exponent. -/
def ofParts (negative : Bool) (whole fraction : List Point) (exponent : Int) : Binary64 :=
  toBinary negative (Text.decimalValue (whole ++ fraction)) (exponent - fraction.length)

/-! ## The fewest digits that read back -/

/-- The power of ten just above a positive magnitude: it has so many digits
before the point, or so many zeros after it if negative. -/
def scale (units : Nat) : Int :=
  (width (units * Nat.pow 10 400 / Binary64.unitsPerOne) : Int) - 400

/-- Of the two neighbours of a magnitude among the decimals of `count`
digits, the one that reads back, and the nearer one if both do. -/
def neighbour? (place count : Nat) : Option (Nat × Int) :=
  let units := Binary64.unitsAt place
  let exponent := scale units - count
  let num := units * Nat.pow 10 (-exponent).toNat
  let den := Binary64.unitsPerOne * Nat.pow 10 exponent.toNat
  let low := num / den
  let rest := num % den
  let lowReads := placeOf low exponent == place
  let highReads := placeOf (low + 1) exponent == place
  if lowReads && highReads then
    some (if 2 * rest < den || (2 * rest == den && low % 2 == 0) then low else low + 1, exponent)
  else if lowReads then some (low, exponent)
  else if highReads then some (low + 1, exponent)
  else none

/-- The shortest decimal that reads back as the magnitude at a place.
Seventeen digits are always enough; the exact decimal stands behind them. -/
def shortest (place : Nat) : Nat × Int :=
  ((List.range 17).findSome? fun i => neighbour? place (i + 1)).getD
    (Binary64.unitsAt place * Nat.pow 5 1074, -1074)

/-! ## Where the point goes -/

/-- How a number is written: the exponents of its first digit that need no
power of ten, and the words for what is not finite. -/
structure Notation where
  leastPlain : Int
  mostPlain : Int
  nan : Text
  infinity : Text

/-- JSON and scripts write numbers from 0.0001 to below 10^16 without a power
of ten. -/
def Notation.json : Notation := ⟨-4, 15, "NaN", "Infinity"⟩

/-- The same notation as a literal shows it. -/
def Notation.literal : Notation := ⟨-4, 15, "nan", "inf"⟩

/-- The sign and at least two digits of a power of ten. -/
def exponentText (e : Int) : List Point :=
  let digits := Text.digitsOf e.natAbs
  (if e < 0 then '-' else '+') :: (if digits.length < 2 then '0' :: digits else digits)

/-- The text of a magnitude with the given significant digits, the first of
which stands for a multiple of `10 ^ e`: plain if the notation says so, and
otherwise one digit, the others, and the power. -/
def layout (style : Notation) (digits : List Point) (e : Int) : List Point :=
  if style.leastPlain ≤ e && e ≤ style.mostPlain then
    if e < 0 then
      Point.scalar '0' :: .scalar '.' :: List.replicate (-e - 1).toNat (.scalar '0') ++ digits
    else
      let count := e.toNat + 1
      let whole := digits.take count ++ List.replicate (count - digits.length) (.scalar '0')
      let fraction := digits.drop count
      whole ++ .scalar '.' :: (if fraction.isEmpty then [.scalar '0'] else fraction)
  else
    let tail := digits.drop 1
    digits.take 1 ++ (if tail.isEmpty then [] else .scalar '.' :: tail) ++
      .scalar 'e' :: exponentText e

/-- The digits of a number without the zeros at its end. -/
def significant (n : Nat) : List Point := Text.dropTail (· == .scalar '0') (Text.digitsOf n)

/-- The text of a magnitude. -/
def magnitudeText (style : Notation) (place : Nat) : List Point :=
  if place = 0 then ['0', '.', '0']
  else if place = infinityPlace then style.infinity.toList
  else
    let (digits, exponent) := shortest place
    layout style (significant digits) (exponent + width digits - 1)

/-- The text of a number. -/
def text (style : Notation) : Binary64 → List Point
  | .nan => style.nan.toList
  | .signed negative place =>
    (if negative then [.scalar '-'] else []) ++ magnitudeText style place.val

end Decimal

end PipelineBoard
