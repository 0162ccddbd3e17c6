-- Quoted text in its two forms: between double quotes, as JSON and a script
-- hold it, and as a message shows it.
import PipelineBoard.Text.Digit
import PipelineBoard.Text.Printable

namespace PipelineBoard.Text

/-! ## Between double quotes -/

/-- A character inside double quotes: the quote, the backslash and the
controls are escaped, and every other character stands as it is. -/
def escapeDouble (c : Point) : List Point :=
  if c = '"' then ['\\', '"']
  else if c = '\\' then ['\\', '\\']
  else if c = '\n' then ['\\', 'n']
  else if c = '\r' then ['\\', 'r']
  else if c = '\t' then ['\\', 't']
  else if c = '\x08' then ['\\', 'b']
  else if c = '\x0c' then ['\\', 'f']
  else if c.toNat < 32 then '\\' :: 'u' :: hexDigits 4 c.toNat
  else [c]

/-- A text between double quotes. -/
def doubleQuoted (cs : List Point) : List Point :=
  .scalar '"' :: cs.flatMap escapeDouble ++ [.scalar '"']

/-! ## As a message shows it -/

/-- A character as a message shows it between the given quotes. -/
def escapeShown (quote c : Point) : List Point :=
  if c = quote || c = '\\' then ['\\', c]
  else if c = '\n' then ['\\', 'n']
  else if c = '\r' then ['\\', 'r']
  else if c = '\t' then ['\\', 't']
  else if isPrintable c then [c]
  else if c.toNat < 0x100 then '\\' :: 'x' :: hexDigits 2 c.toNat
  else if c.toNat < 0x10000 then '\\' :: 'u' :: hexDigits 4 c.toNat
  else '\\' :: 'U' :: hexDigits 8 c.toNat

/-- Single quotes, unless the text holds one and no double quote. -/
def shownQuote (cs : List Point) : Point :=
  if cs.contains (.scalar '\'') && !cs.contains (.scalar '"') then '"' else '\''

/-- A text as a message shows it. -/
def shownChars (cs : List Point) : List Point :=
  shownQuote cs :: cs.flatMap (escapeShown (shownQuote cs)) ++ [shownQuote cs]

/-- A text as a message shows it. -/
def shown (s : Text) : Text := Text.ofList (shownChars s.toList)

end PipelineBoard.Text
