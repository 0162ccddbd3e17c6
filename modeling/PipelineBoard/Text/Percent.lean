-- Percent encoding: a text as the characters that a path may hold.
import PipelineBoard.Text.Digit
import PipelineBoard.Text.Utf8

namespace PipelineBoard.Text

/-! ## Writing -/

/-- ASCII letters, digits and `_.-~/` need no encoding. -/
def isPathSafe (c : Char) : Bool :=
  c.isAlphanum || c == '_' || c == '.' || c == '-' || c == '~' || c == '/'

/-- A byte as `%` and two hexadecimal digits in upper case. -/
def percentByte (b : UInt8) : List Char :=
  ['%', (Nat.digitChar (b.toNat / 16)).toUpper, (Nat.digitChar (b.toNat % 16)).toUpper]

/-- The characters with every byte of an unsafe one encoded. -/
def percentChars (cs : List Char) : List Char :=
  cs.flatMap fun c => if isPathSafe c then [c] else (String.utf8EncodeChar c).flatMap percentByte

/-- The text with every byte of an unsafe character encoded. -/
def percentEncode (s : String) : String := String.ofList (percentChars s.toList)

/-! ## Reading -/

/-- The bytes that a percent-encoded text stands for. A `%` without two
hexadecimal digits stands for itself. -/
def percentBytes : List Char → List UInt8
  | [] => []
  | '%' :: a :: b :: rest =>
    match hexValue? a, hexValue? b with
    | some high, some low => UInt8.ofNat (16 * high + low) :: percentBytes rest
    | _, _ => 0x25 :: percentBytes (a :: b :: rest)
  | c :: rest => String.utf8EncodeChar c ++ percentBytes rest

/-- The text that a percent-encoded text stands for. -/
def percentDecode (s : String) : String := ofUtf8Lossy (percentBytes s.toList)

end PipelineBoard.Text
