-- Binary floating-point numbers of double precision, as exact values. A
-- finite magnitude is known by its place among the magnitudes, in increasing
-- order, and by the number of its smallest units, 2^-1074 each.

namespace PipelineBoard

/-- How many places a binade has, which is all magnitudes from one power of
two to the next. -/
def binade : Nat := Nat.pow 2 52

/-- The place of infinity: every finite magnitude has a place below it. -/
def infinityPlace : Nat := 2047 * binade

/-- A double-precision number: not a number, or a sign with a magnitude. -/
inductive Binary64 where
  | nan
  | signed (negative : Bool) (place : Fin (infinityPlace + 1))
deriving DecidableEq

namespace Binary64

/-! ## Magnitudes -/

/-- The number at a place; a place beyond infinity is infinity. -/
def ofPlace (negative : Bool) (place : Nat) : Binary64 :=
  .signed negative ⟨min place infinityPlace, by omega⟩

def infinite (negative : Bool) : Binary64 := ofPlace negative infinityPlace

def zero : Binary64 := ofPlace false 0

/-- Neither infinite nor `nan`. -/
def isFinite : Binary64 → Bool
  | .nan => false
  | .signed _ place => place.val < infinityPlace

/-- How many smallest units the finite magnitude at a place has: 52 bits of
fraction, above them the exponent, and from exponent 1 on a leading bit. -/
def unitsAt (place : Nat) : Nat :=
  let exponent := place / binade
  let fraction := place % binade
  if exponent = 0 then fraction else (binade + fraction) * Nat.pow 2 (exponent - 1)

/-- The smallest units in one. -/
def unitsPerOne : Nat := Nat.pow 2 1074

/-! ## Rounding -/

/-- A quotient rounded to the nearest natural number, a tie to the even one. -/
def roundQuotient (num den : Nat) : Nat :=
  let q := num / den
  let r := num % den
  if den < 2 * r || (den == 2 * r && q % 2 == 1) then q + 1 else q

/-- The place of the magnitude nearest to `num / den` units. Past 53 bits the
unit of the last place grows, and a carry lands on the next place by itself. -/
def nearestPlace (num den : Nat) : Nat :=
  let shift := (num / den).log2 - 52
  min (shift * binade + roundQuotient num (den * Nat.pow 2 shift)) infinityPlace

/-- The number nearest to a whole number of units. -/
def ofUnits (units : Int) : Binary64 :=
  ofPlace (units < 0) (nearestPlace units.natAbs 1)

/-- The number nearest to an integer. -/
def ofInt (n : Int) : Binary64 := ofUnits (n * unitsPerOne)

/-! ## Arithmetic -/

/-- The units of a number with its sign; an infinite or undefined one has none. -/
def units : Binary64 → Int
  | .nan => 0
  | .signed negative place =>
    if place.val < infinityPlace then
      if negative then -(unitsAt place.val : Int) else unitsAt place.val
    else 0

/-- The sum, rounded to the nearest number. A sum of zero is negative only
if both terms are. -/
def add (a b : Binary64) : Binary64 :=
  match a, b with
  | .nan, _ => .nan
  | _, .nan => .nan
  | .signed s p, .signed t q =>
    if p.val = infinityPlace then
      if q.val = infinityPlace && s != t then .nan else a
    else if q.val = infinityPlace then b
    else
      let sum := a.units + b.units
      if sum = 0 then ofPlace (s && t) 0 else ofUnits sum

/-- The integer that a whole finite number equals. -/
def toInt? (d : Binary64) : Option Int :=
  if d.isFinite && d.units % unitsPerOne == 0 then some (d.units / unitsPerOne) else none

/-! ## First facts -/

/-- The leading bit continues the fraction: the places of the first two
binades count units. -/
theorem unitsAt_small {place : Nat} (h : place < 2 * binade) : unitsAt place = place := by
  have size : binade = 4503599627370496 := rfl
  unfold unitsAt
  simp only [size] at h ⊢
  split
  · omega
  · have first : place / 4503599627370496 = 1 := by omega
    have once : Nat.pow 2 (1 - 1) = 1 := rfl
    rw [first, once]
    omega

end Binary64

end PipelineBoard
