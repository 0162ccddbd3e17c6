-- Numbers as requests write them: blanks around them do not matter, single
-- underscores are passed over, and an integer may have zeros on either side.
import PipelineBoard.Number.Numeral

namespace PipelineBoard

namespace Http

/-! ## Blanks and underscores -/

/-- The white space of Unicode. -/
def isWhite (c : Point) : Bool := Text.isBlank c && !(28 ≤ c.toNat && c.toNat ≤ 31)

/-- The characters without their underscores, none of which may be at either
end or beside another one. -/
def withoutUnderscores? (cs : List Point) : Option (List Point) :=
  if cs.head? != some (.scalar '_') && Numeral.underscoresApart cs then some (cs.filter (· != .scalar '_'))
  else none

/-! ## Real numbers -/

/-- The real number of a text: a numeral with blanks around it, or one with
underscores inside. -/
def readReal? (s : Text) : Option Binary64 :=
  match Numeral.readSigned? (Text.trimBy isWhite s.toList) with
  | some d => some d
  | none => (withoutUnderscores? s.toList).bind Numeral.readSigned?

/-! ## Indices -/

/-- The padding at the front of an integer: zeros, and underscores among them
or behind them. -/
def padding (cs : List Point) : List Point :=
  if cs.head? == some (.scalar '0') then cs.takeWhile fun c => c == '0' || c == '_' else []

/-- An integer without its padding. The last character of the padding stays
if nothing or a point follows. -/
def dropPadding (cs : List Point) : List Point :=
  let front := padding cs
  let rest := cs.drop front.length
  if rest.isEmpty || rest.head? == some (.scalar '.') then front.drop (front.length - 1) ++ rest else rest

/-- The number of a run of digits: not more than a number may have, and no
zero at the front of others. -/
def digits? (cs : List Point) : Option Nat :=
  if cs.isEmpty || !cs.all Text.isDigit || Numeral.mostDigits < cs.length then none
  else if cs.head? == some (.scalar '0') && cs.length != 1 then none
  else some (Text.decimalValue cs)

/-- The integer without padding that the characters write: a minus or none,
digits with underscores, and at the end a point with zeros or nothing. -/
def plainInteger? (cs : List Point) : Option Int :=
  let whole := cs.takeWhile (· != .scalar '.')
  let tail := cs.drop whole.length
  if tail.length == 1 || !(tail.drop 1).all (· == .scalar '0') then none
  else
    match withoutUnderscores? whole with
    | none => none
    | some (.scalar '-' :: digits) => (digits? digits).map fun n => -(n : Int)
    | some digits => (digits? digits).map fun n => (n : Int)

/-- The integer of an index: a digit must follow a sign, and padding behind
the sign or in front of a minus is passed over. -/
def index? (text : Text) : Option Int :=
  let startsWithDigit (cs : List Point) : Bool := cs.head?.any Text.isDigit
  match Text.trimBy isWhite text.toList with
  | .scalar '-' :: body => if startsWithDigit body then plainInteger? ('-' :: dropPadding body) else none
  | .scalar '+' :: body => if startsWithDigit body then plainInteger? (dropPadding body) else none
  | body => plainInteger? (dropPadding body)

end Http

end PipelineBoard
