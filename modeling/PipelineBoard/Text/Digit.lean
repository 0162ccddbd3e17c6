-- Decimal digits of every script, and the numbers that they write.
import PipelineBoard.Text.Basic

namespace PipelineBoard.Text

/-! ## The table -/

/-- The code points of the zeros: each is followed by the other nine digits
of its script (Unicode 14). -/
def zeros : List Nat := [
  48, 1632, 1776, 1984, 2406, 2534, 2662, 2790, 2918, 3046, 3174, 3302, 3430, 3558, 3664, 3792,
  3872, 4160, 4240, 6112, 6160, 6470, 6608, 6784, 6800, 6992, 7088, 7232, 7248, 42528, 43216,
  43264, 43472, 43504, 43600, 44016, 65296, 66720, 68912, 69734, 69872, 69942, 70096, 70384,
  70736, 70864, 71248, 71360, 71472, 71904, 72016, 72784, 73040, 73120, 92768, 92864, 93008,
  120782, 120792, 120802, 120812, 120822, 123200, 123632, 125264, 130032]

/-! ## Digits and their values -/

/-- The value of a decimal digit of any script. -/
def digitValue? (c : Point) : Option Nat :=
  zeros.findSome? fun start =>
    if start ≤ c.toNat && c.toNat ≤ start + 9 then some (c.toNat - start) else none

/-- The digits `0` to `9`. -/
def isDigit (c : Point) : Bool := 48 ≤ c.toNat && c.toNat ≤ 57

/-- The value of a digit `0` to `9`. -/
def digitValue (c : Point) : Nat := c.toNat - 48

/-- The number that a run of digits writes in base ten. -/
def decimalValue (cs : List Point) : Nat :=
  cs.foldl (fun value c => 10 * value + digitValue c) 0

/-- The digits of a number in base ten. -/
def digitsOf (n : Nat) : List Point := (Nat.toDigits 10 n).map .scalar

/-- The value of a hexadecimal digit in either case. -/
def hexValue? (c : Point) : Option Nat :=
  let n := c.toNat
  if 48 ≤ n && n ≤ 57 then some (n - 48)
  else if 97 ≤ n && n ≤ 102 then some (n - 87)
  else if 65 ≤ n && n ≤ 70 then some (n - 55)
  else none

/-- The last hexadecimal digits of a number, so many as asked, in lower case. -/
def hexDigits (count n : Nat) : List Point :=
  match count with
  | 0 => []
  | count + 1 => hexDigits count (n / 16) ++ [.scalar (Nat.digitChar (n % 16))]

end PipelineBoard.Text
