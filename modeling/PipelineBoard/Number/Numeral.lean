-- Numbers written in free text: blanks around them, a sign, digits of any
-- script, and single underscores between digits.
import PipelineBoard.Number.Decimal
import PipelineBoard.Text.Blank
import PipelineBoard.Text.Digit
import PipelineBoard.Text.Quoted

namespace PipelineBoard

namespace Numeral

/-! ## Plain characters -/

/-- The white space of ASCII, without its separators. -/
def isPlainBlank (c : Point) : Bool := (9 ≤ c.toNat && c.toNat ≤ 13) || c == ' '

/-- A digit of any script as `0` to `9`, a blank beyond ASCII as a space, and
any other character as it is. -/
def plainChar (c : Point) : Point :=
  if c.toNat < 127 then c
  else if Text.isBlank c then ' '
  else (Text.digitValue? c).elim c fun value => .scalar (Nat.digitChar value)

/-- The plain characters of a text without the blanks around them. -/
def plain (s : Text) : List Point :=
  Text.trimBy isPlainBlank (s.toList.map plainChar)

/-- The sign, true for a minus, and what follows it. -/
def takeSign : List Point → Bool × List Point
  | .scalar '-' :: rest => (true, rest)
  | .scalar '+' :: rest => (false, rest)
  | cs => (false, cs)

/-! ## Integers -/

/-- An integer may have so many digits, its sign not counted. -/
def mostDigits : Nat := 4300

/-- Why a text is no integer. -/
inductive IntegerError where
  | notInteger (text : Text)
  | tooManyDigits (count : Nat)

/-- The words for an integer of too many digits. -/
def tooManyDigitsText (count : Nat) : Text :=
  "Exceeds the limit (4300 digits) for integer string conversion: value has " ++ count.repr ++
    " digits; use sys.set_int_max_str_digits() to increase the limit"

/-- The integer has few enough digits to be written. -/
def isShort (n : Int) : Bool := Decimal.width n.natAbs ≤ mostDigits

/-- Why an integer is not written. -/
inductive WriteError where
  | tooManyDigits

def WriteError.message : WriteError → Text
  | .tooManyDigits =>
    "Exceeds the limit (4300 digits) for integer string conversion; use " ++
      "sys.set_int_max_str_digits() to increase the limit"

/-- A text that is no integer is shown by its first 200 characters. -/
def IntegerError.message : IntegerError → Text
  | .notInteger text =>
    "invalid literal for int() with base 10: " ++
      Text.ofList ((Text.shownChars text.toList).take 200)
  | .tooManyDigits count => tooManyDigitsText count

/-- Digits with single underscores between them; `afterDigit` says that the
character before was a digit. -/
def wellSpaced (afterDigit : Bool) : List Point → Bool
  | [] => afterDigit
  | c :: rest => if c = '_' then afterDigit && wellSpaced false rest else wellSpaced true rest

/-- The integer that a text writes. The number of digits is judged before
what follows them. -/
def readInteger (s : Text) : Except IntegerError Int :=
  let (negative, body) := takeSign (plain s)
  let run := body.takeWhile fun c => Text.isDigit c || c == '_'
  let digits := run.filter Text.isDigit
  if !wellSpaced false run then .error (.notInteger s)
  else if mostDigits < digits.length then .error (.tooManyDigits digits.length)
  else if run.length < body.length then .error (.notInteger s)
  else
    let value : Int := Text.decimalValue digits
    .ok (if negative then -value else value)

/-! ## Real numbers -/

/-- The power of ten at the end of a numeral: nothing, or `e`, a sign and
at least one digit. -/
def readExponent? : List Point → Option Int
  | [] => some 0
  | c :: rest =>
    let (negative, digits) := takeSign rest
    if (c == 'e' || c == 'E') && !digits.isEmpty && digits.all Text.isDigit then
      some (if negative then -(Text.decimalValue digits : Int) else Text.decimalValue digits)
    else none

/-- A numeral of digits, a point and a power of ten, with at least one digit
before or after the point. -/
def readUnsigned? (negative : Bool) (cs : List Point) : Option Binary64 :=
  let whole := cs.takeWhile Text.isDigit
  let rest := cs.dropWhile Text.isDigit
  let (fraction, rest) := match rest with
    | .scalar '.' :: rest => (rest.takeWhile Text.isDigit, rest.dropWhile Text.isDigit)
    | rest => ([], rest)
  if whole.isEmpty && fraction.isEmpty then none
  else (readExponent? rest).map (Decimal.ofParts negative whole fraction)

/-- A signed numeral, or a word for what is not finite in any case. -/
def readSigned? (cs : List Point) : Option Binary64 :=
  let (negative, body) := takeSign cs
  let word := Text.ofList (body.map (Point.map Char.toLower))
  if word = "inf" || word = "infinity" then some (.infinite negative)
  else if word = "nan" then some .nan
  else readUnsigned? negative body

/-- The underscores of a text stand between two digits each; `before` is the
character before the text. -/
def underscoresBetweenDigits (before : Point) : List Point → Bool
  | [] => before != '_'
  | c :: rest =>
    (if c = '_' then Text.isDigit before else before != '_' || Text.isDigit c) &&
      underscoresBetweenDigits c rest

/-- No underscore ends the text or follows another one. -/
def underscoresApart : List Point → Bool
  | [] => true
  | c :: rest =>
    (c != '_' || (rest.head?.isSome && rest.head? != some (.scalar '_'))) && underscoresApart rest

/-- The real number that a text writes. -/
def readReal? (s : Text) : Option Binary64 :=
  let cs := plain s
  if underscoresBetweenDigits ' ' cs then readSigned? (cs.filter (· != .scalar '_')) else none

end Numeral

end PipelineBoard
