-- Reading JSON text. A text that is no JSON gives one fault and the place
-- where it was found. Beyond JSON, `NaN` and the two infinities are read.
import PipelineBoard.Json.Basic
import PipelineBoard.Number.Numeral

namespace PipelineBoard

namespace Json

/-! ## Faults -/

/-- What is wrong with a text at some place. -/
inductive Fault where
  | noValue
  | noKey
  | noColon
  | noComma
  | extraData
  | openString
  | controlCharacter
  | badEscape
  | badUnicodeEscape
  | byteOrderMark

def Fault.text : Fault → Text
  | .noValue => "Expecting value"
  | .noKey => "Expecting property name enclosed in double quotes"
  | .noColon => "Expecting ':' delimiter"
  | .noComma => "Expecting ',' delimiter"
  | .extraData => "Extra data"
  | .openString => "Unterminated string starting at"
  | .controlCharacter => "Invalid control character at"
  | .badEscape => "Invalid \\escape"
  | .badUnicodeEscape => "Invalid \\uXXXX escape"
  | .byteOrderMark => "Unexpected UTF-8 BOM (decode using utf-8-sig)"

/-- A place in a text: line and column from one, offset from zero. -/
structure Place where
  line : Nat
  column : Nat
  offset : Nat

/-- Why a text was not read. -/
inductive ReadError where
  | malformed (fault : Fault) (place : Place)
  | tooManyDigits (count : Nat)

/-- A fault is told with its place. -/
def ReadError.message : ReadError → Text
  | .malformed fault place =>
    fault.text ++ ": line " ++ place.line.repr ++ " column " ++ place.column.repr ++ " (char " ++
      place.offset.repr ++ ")"
  | .tooManyDigits count => Numeral.tooManyDigitsText count

/-- The place of an offset: line feeds alone end lines. -/
def placeAt (text : List Point) (offset : Nat) : Place :=
  let before := text.take offset
  let column := (before.reverse.takeWhile (· != .scalar '\n')).length + 1
  ⟨before.count (.scalar '\n') + 1, column, offset⟩

/-! ## The cursor -/

/-- What is left of a text, and how many characters came before it. -/
structure Cursor where
  rest : List Point
  offset : Nat

/-- A fault at an offset, or a number that is too long. -/
inductive Stop where
  | fault (fault : Fault) (offset : Nat)
  | tooManyDigits (count : Nat)

/-- Past so many characters. -/
def Cursor.skip (c : Cursor) (count : Nat) : Cursor := ⟨c.rest.drop count, c.offset + count⟩

def isSpace (c : Point) : Bool := c == ' ' || c == '\t' || c == '\n' || c == '\r'

/-- Past the white space. -/
def Cursor.skipSpace (c : Cursor) : Cursor := c.skip (c.rest.takeWhile isSpace).length

/-! ## Strings -/

/-- The characters that a short escape stands for. -/
def shortEscape? (c : Point) : Option Point :=
  if c = '"' || c = '\\' || c = '/' then some c
  else if c = 'b' then some (.scalar '\x08')
  else if c = 'f' then some (.scalar '\x0c')
  else if c = 'n' then some (.scalar '\n')
  else if c = 'r' then some (.scalar '\r')
  else if c = 't' then some (.scalar '\t')
  else none

/-- The number that four hexadecimal digits write. -/
def unit? (a b c d : Point) : Option Nat := do
  let a ← Text.hexValue? a
  let b ← Text.hexValue? b
  let c ← Text.hexValue? c
  let d ← Text.hexValue? d
  some (((16 * a + b) * 16 + c) * 16 + d)

def isHighSurrogate (n : Nat) : Bool := 0xd800 ≤ n && n ≤ 0xdbff

def isLowSurrogate (n : Nat) : Bool := 0xdc00 ≤ n && n ≤ 0xdfff

/-- A piece of a string: a code point that stands there itself, or the number
that an escape writes. -/
inductive Piece where
  | point (p : Point)
  | unit (n : Nat)

/-- The code points of the pieces of a string. Two escapes for the halves of a
surrogate pair, one behind the other, are one character. -/
def joinPieces : List Piece → List Point
  | [] => []
  | .point p :: rest => p :: joinPieces rest
  | .unit n :: .unit next :: rest =>
    if isHighSurrogate n && isLowSurrogate next then
      .ofNat (0x10000 + (n - 0xd800) * 0x400 + (next - 0xdc00)) :: joinPieces rest
    else .ofNat n :: joinPieces (.unit next :: rest)
  | .unit n :: rest => .ofNat n :: joinPieces rest

/-- Reads a string up to its closing quote. `start` is the offset of its
opening quote, `done` holds the pieces so far in reverse. -/
def readString (start : Nat) (done : List Piece) (offset : Nat) :
    List Point → Except Stop (Text × Cursor)
  | [] => .error (.fault .openString start)
  | .scalar '"' :: rest => .ok (Text.ofList (joinPieces done.reverse), ⟨rest, offset + 1⟩)
  | .scalar '\\' :: .scalar 'u' :: a :: b :: c :: d :: rest =>
    match unit? a b c d with
    | none => .error (.fault .badUnicodeEscape (offset + 1))
    | some unit =>
      if rest.isEmpty then .error (.fault .badUnicodeEscape (offset + 1))
      else readString start (.unit unit :: done) (offset + 6) rest
  | .scalar '\\' :: .scalar 'u' :: _ => .error (.fault .badUnicodeEscape (offset + 1))
  | .scalar '\\' :: [] => .error (.fault .openString start)
  | .scalar '\\' :: c :: rest =>
    match shortEscape? c with
    | none => .error (.fault .badEscape offset)
    | some c => readString start (.point c :: done) (offset + 2) rest
  | c :: rest =>
    if c.toNat < 32 then .error (.fault .controlCharacter offset)
    else readString start (.point c :: done) (offset + 1) rest

/-! ## Numbers -/

/-- The digits before the point: a zero alone, or digits without a zero at
their front. -/
def wholeDigits : List Point → List Point
  | [] => []
  | c :: rest => if c = '0' then [c] else (c :: rest).takeWhile Text.isDigit

/-- The digits after a point, if it has any. -/
def fractionDigits : List Point → List Point
  | .scalar '.' :: rest => rest.takeWhile Text.isDigit
  | _ => []

/-- A power of ten: how many characters it takes, and its exponent. -/
def powerOfTen : List Point → Option (Nat × Int)
  | c :: rest =>
    let (negative, body) := Numeral.takeSign rest
    let digits := body.takeWhile Text.isDigit
    if (c == 'e' || c == 'E') && !digits.isEmpty then
      let value : Int := Text.decimalValue digits
      some (1 + (rest.length - body.length) + digits.length, if negative then -value else value)
    else none
  | [] => none

/-- Reads a number: an integer, or a real number if it has a point with
digits or a power of ten. -/
def readNumber (c : Cursor) : Except Stop (Json × Cursor) :=
  let negative := c.rest.head? == some (.scalar '-')
  let body := if negative then c.skip 1 else c
  let whole := wholeDigits body.rest
  if whole.isEmpty then .error (.fault .noValue c.offset)
  else
    let afterWhole := body.skip whole.length
    let fraction := fractionDigits afterWhole.rest
    let afterFraction :=
      if fraction.isEmpty then afterWhole else afterWhole.skip (1 + fraction.length)
    match powerOfTen afterFraction.rest with
    | some (length, exponent) =>
      .ok (.real (Decimal.ofParts negative whole fraction exponent), afterFraction.skip length)
    | none =>
      if !fraction.isEmpty then
        .ok (.real (Decimal.ofParts negative whole fraction 0), afterFraction)
      else if Numeral.mostDigits < whole.length then .error (.tooManyDigits whole.length)
      else
        let value : Int := Text.decimalValue whole
        .ok (.int (if negative then -value else value), afterWhole)

/-! ## Values -/

/-- The words that are values. -/
def words : List (Text × Json) := [
  ("null", .null), ("true", .bool true), ("false", .bool false), ("NaN", .real .nan),
  ("Infinity", .real (.infinite false)), ("-Infinity", .real (.infinite true))]

/-- The word at the cursor. -/
def word? (c : Cursor) : Option (Json × Cursor) :=
  words.findSome? fun (word, value) =>
    if word.toList.isPrefixOf c.rest then some (value, c.skip word.length) else none

mutual

/-- Reads one value. Each value, item and field takes one step, and a text
has fewer of them than twice its characters. -/
def readValue : Nat → Cursor → Except Stop (Json × Cursor)
  | 0, c => .error (.fault .noValue c.offset)
  | steps + 1, c =>
    match c.rest with
    | .scalar '"' :: rest => (readString c.offset [] (c.offset + 1) rest).map fun (s, c) => (.string s, c)
    | .scalar '{' :: _ =>
      let inside := (c.skip 1).skipSpace
      if inside.rest.head? == some (.scalar '}') then .ok (.object [], inside.skip 1)
      else readFields steps [] inside
    | .scalar '[' :: _ =>
      let inside := (c.skip 1).skipSpace
      if inside.rest.head? == some (.scalar ']') then .ok (.list [], inside.skip 1)
      else readItems steps [] inside
    | _ =>
      match word? c with
      | some found => .ok found
      | none => readNumber c

/-- Reads the items of a list up to its closing bracket; `done` holds the
items so far in reverse. -/
def readItems : Nat → List Json → Cursor → Except Stop (Json × Cursor)
  | 0, _, c => .error (.fault .noValue c.offset)
  | steps + 1, done, c =>
    match readValue steps c with
    | .error stop => .error stop
    | .ok (value, c) =>
      let after := c.skipSpace
      match after.rest with
      | .scalar ']' :: _ => .ok (.list (value :: done).reverse, after.skip 1)
      | .scalar ',' :: _ => readItems steps (value :: done) (after.skip 1).skipSpace
      | _ => .error (.fault .noComma after.offset)

/-- Reads the fields of an object up to its closing brace. A key that comes
again keeps its first place and takes the last value. -/
def readFields : Nat → Fields → Cursor → Except Stop (Json × Cursor)
  | 0, _, c => .error (.fault .noValue c.offset)
  | steps + 1, done, c =>
    match c.rest with
    | .scalar '"' :: rest =>
      match readString c.offset [] (c.offset + 1) rest with
      | .error stop => .error stop
      | .ok (key, c) =>
        let colon := c.skipSpace
        match colon.rest with
        | .scalar ':' :: _ =>
          match readValue steps (colon.skip 1).skipSpace with
          | .error stop => .error stop
          | .ok (value, c) =>
            let fields := done.set key value
            let after := c.skipSpace
            match after.rest with
            | .scalar '}' :: _ => .ok (.object fields, after.skip 1)
            | .scalar ',' :: _ => readFields steps fields (after.skip 1).skipSpace
            | _ => .error (.fault .noComma after.offset)
        | _ => .error (.fault .noColon colon.offset)
    | _ => .error (.fault .noKey c.offset)

end

/-- Reads a whole text: one value with white space around it. -/
def readChars (text : List Point) : Except Stop Json :=
  if text.head? == some (.scalar '\ufeff') then .error (.fault .byteOrderMark 0)
  else
    match readValue (2 * text.length + 2) (Cursor.mk text 0).skipSpace with
    | .error stop => .error stop
    | .ok (value, c) =>
      let after := c.skipSpace
      if after.rest.isEmpty then .ok value else .error (.fault .extraData after.offset)

/-- The JSON value that a text writes. -/
def read (text : Text) : Except ReadError Json :=
  match readChars text.toList with
  | .ok value => .ok value
  | .error (.fault fault offset) => .error (.malformed fault (placeAt text.toList offset))
  | .error (.tooManyDigits count) => .error (.tooManyDigits count)

end Json

end PipelineBoard
