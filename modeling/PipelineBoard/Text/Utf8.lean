-- Reading bytes as UTF-8 text without ever failing: a byte that fits no
-- character stands as the replacement character.

namespace PipelineBoard.Text

/-! ## The reader of one byte at a time -/

/-- A character that has begun: how many bytes it still needs, the bounds of
the next one, and the bits read so far. -/
structure Partial where
  missing : Nat
  lower : Nat
  upper : Nat
  bits : Nat

/-- What stands for bytes that are no character. -/
def replacement : Char := '\ufffd'

/-- The first byte of a character: the characters that it settles, and the
character that it begins. -/
def Partial.start (b : Nat) : List Char × Option Partial :=
  if b < 0x80 then ([Char.ofNat b], none)
  else if 0xc2 ≤ b && b ≤ 0xdf then ([], some ⟨1, 0x80, 0xbf, b - 0xc0⟩)
  else if b == 0xe0 then ([], some ⟨2, 0xa0, 0xbf, 0⟩)
  else if b == 0xed then ([], some ⟨2, 0x80, 0x9f, 13⟩)
  else if 0xe1 ≤ b && b ≤ 0xef then ([], some ⟨2, 0x80, 0xbf, b - 0xe0⟩)
  else if b == 0xf0 then ([], some ⟨3, 0x90, 0xbf, 0⟩)
  else if 0xf1 ≤ b && b ≤ 0xf3 then ([], some ⟨3, 0x80, 0xbf, b - 0xf0⟩)
  else if b == 0xf4 then ([], some ⟨3, 0x80, 0x8f, 4⟩)
  else ([replacement], none)

/-- One more byte. A byte out of bounds ends the character that has begun as
a replacement, and is itself read as a first byte. -/
def Partial.feed : Option Partial → Nat → List Char × Option Partial
  | none, b => Partial.start b
  | some p, b =>
    if p.lower ≤ b && b ≤ p.upper then
      let bits := 64 * p.bits + (b - 0x80)
      if p.missing ≤ 1 then ([Char.ofNat bits], none)
      else ([], some ⟨p.missing - 1, 0x80, 0xbf, bits⟩)
    else
      let next := Partial.start b
      (replacement :: next.1, next.2)

/-- The characters of the bytes that follow what has begun. -/
def readBytes : Option Partial → List UInt8 → List Char
  | none, [] => []
  | some _, [] => [replacement]
  | pending, b :: rest =>
    let next := Partial.feed pending b.toNat
    next.1 ++ readBytes next.2 rest

/-- The text that the bytes write. -/
def ofUtf8Lossy (bytes : List UInt8) : String := String.ofList (readBytes none bytes)

end PipelineBoard.Text
