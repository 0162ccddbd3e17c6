-- The file name of a script: one path component, whatever the project name.
import PipelineBoard.Graph.Basic
import PipelineBoard.Text.Blank

namespace PipelineBoard

namespace Script

/-- A character that no part of a path may hold. -/
def isUnsafe (c : Point) : Bool :=
  c.toNat < 32 || c.is ['\\', '/', ':', '*', '?', '"', '<', '>', '|'].contains

/-- The project name with underscores for unsafe characters, without blanks
at its ends and without dots at its front. -/
def stem (name : Text) : Text :=
  let safe := name.toList.map fun c => if isUnsafe c then .scalar '_' else c
  Text.ofList ((Text.trimBy Text.isBlank safe).dropWhile (· == .scalar '.'))

/-- The file name of a project's script. -/
def fileName (name : Text) : Text := nameOrDefault (stem name) ++ ".py"

end Script

end PipelineBoard
