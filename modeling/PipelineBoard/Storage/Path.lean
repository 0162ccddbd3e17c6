-- Paths in normal form.
import PipelineBoard.Text.Blank

namespace PipelineBoard

/-- A path: the slashes at its front, and the names on it. Names are not
empty and no single dots; double dots stay. -/
structure Path where
  root : Text
  names : List Text

namespace Path

/-- The pieces between the marks of a list: one more than there are marks. -/
def cutAt {α : Type} [DecidableEq α] (mark : α) : List α → List (List α)
  | [] => [[]]
  | c :: rest =>
    if c = mark then [] :: cutAt mark rest
    else match cutAt mark rest with
      | [] => [[c]]
      | piece :: pieces => (c :: piece) :: pieces

/-- The slashes at the front of a path: two stay two, more count as one. -/
def rootOf (cs : List Point) : Text :=
  match (cs.takeWhile (· == .scalar '/')).length with
  | 0 => ""
  | 2 => "//"
  | _ => "/"

/-- The path that a text writes. -/
def ofString (text : Text) : Path :=
  let pieces := (cutAt (.scalar '/') text.toList).map Text.ofList
  ⟨rootOf text.toList, pieces.filter fun name => name ≠ "" && name ≠ "."⟩

/-- The text of a path; a path without names is a dot. -/
def text (p : Path) : Text :=
  if p.root.isEmpty && p.names.isEmpty then "." else p.root ++ Text.intercalate "/" p.names

/-- A name inside a directory. -/
def child (p : Path) (name : Text) : Path := { p with names := p.names ++ [name] }

end Path

end PipelineBoard
