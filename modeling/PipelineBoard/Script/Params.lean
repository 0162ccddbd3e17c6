-- The params of a node as a script uses them: one value with a default, and
-- all of them as a comment.
import PipelineBoard.Json.Printer
import PipelineBoard.Text.Blank

namespace PipelineBoard

namespace Params

/-! ## One value -/

/-- The value of a key; the default stands for an absent or null one. -/
def valueOr (params : Fields) (key : Text) (default : Json) : Json :=
  match params.get? key with
  | none | some .null => default
  | some value => value

/-- The number of a key; the default stands for any other value. -/
def numberOr (params : Fields) (key : Text) (default : Json) : Json :=
  let value := valueOr params key default
  if value.isNumber then value else default

/-- The positive whole number of a key, written as an integer or as a real
number; the default stands for any other value. A default that is no number
and no boolean has no order, and gives none. -/
def countOr (params : Fields) (key : Text) (default : Json) : Option Json :=
  match numberOr params key default with
  | .int n => some (if 0 < n then .int n else default)
  | .bool b => some (if b then .bool b else default)
  | .real d =>
    match d.toInt? with
    | some n => some (if 0 < n then .int n else default)
    | none => some default
  | _ => none

/-- The positive whole number of a key, or the default. -/
def count (params : Fields) (key : Text) (default : Int) : Int :=
  match countOr params key (.int default) with
  | some (.int n) => n
  | _ => default

/-! ## All of them -/

/-- The params as comment lines, one for each line of their JSON text. -/
def commentLines (params : Fields) : List Text :=
  match Text.cutAtFeeds (Json.render 0 (.object params)) with
  | [] => []
  | first :: rest =>
    ("# params: " ++ Text.ofList first) :: rest.map fun line => "# " ++ Text.ofList line

end Params

end PipelineBoard
