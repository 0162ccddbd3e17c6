-- A writer of indented lines.
import PipelineBoard.Json.Printer

namespace PipelineBoard

/-- The lines written so far, and the level of the next one: four spaces for
each level above zero. Once a value was to be written that has an integer of
too many digits, the writing has failed, whatever lines follow. -/
structure Writer where
  lines : List Text := []
  level : Int := 0
  failed : Bool := false

namespace Writer

/-- The indentation of a level. -/
def margin (level : Int) : Text := Text.ofList (List.replicate (4 * level.toNat) ' ')

/-- Writes a line at the level; an empty line has no indentation. -/
def line (text : Text) (w : Writer) : Writer :=
  { w with lines := w.lines ++ [if text.isEmpty then ("" : Text) else margin w.level ++ text] }

def blank (w : Writer) : Writer := w.line ""

/-- Writes a text as a comment. -/
def comment (text : Text) (w : Writer) : Writer := w.line ("# " ++ text)

/-- Goes one level deeper. -/
def deeper (w : Writer) : Writer := { w with level := w.level + 1 }

/-- Goes one level back, never below zero. -/
def back (w : Writer) : Writer := { w with level := max 0 (w.level - 1) }

/-- Writes several lines at the level. -/
def all (texts : List Text) (w : Writer) : Writer := texts.foldl (fun w text => w.line text) w

/-- Writes a heading and, one level deeper, its body. -/
def block (heading : Text) (body : Writer → Writer) (w : Writer) : Writer :=
  (body (w.line heading).deeper).back

/-- Fails if a value that the lines show cannot be written. -/
def showing (value : Json) (w : Writer) : Writer :=
  { w with failed := w.failed || !value.isShort }

/-- The lines with line feeds between them. -/
def joined (w : Writer) : Text := Text.intercalate "\n" w.lines

/-- What was written, if the writing has not failed. -/
def text (w : Writer) : Except Numeral.WriteError Text :=
  if w.failed then .error .tooManyDigits else .ok w.joined

/-! ## First facts -/

@[simp] theorem level_line (w : Writer) (text : Text) : (w.line text).level = w.level := rfl

end Writer

end PipelineBoard
