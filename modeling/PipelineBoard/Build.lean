-- Building a graph: its script, or every reason why it has none.
import PipelineBoard.Script.Emit

namespace PipelineBoard

/-- The result of a build. -/
structure Build where
  source : Text
  problems : List Problem

namespace Build

/-- A build without problems has a script. -/
def ok (build : Build) : Bool := build.problems.isEmpty

def errors (build : Build) : List Text := build.problems.map Problem.message

/-- The script, or the block of comments that lists the errors. -/
def text (build : Build) : Text :=
  if build.ok then build.source else Script.errorBlock build.errors

/-- The result as a value. -/
def toJson (build : Build) : Json :=
  if build.ok then .object [("ok", .bool true), ("source", .string build.source)]
  else .object [("ok", .bool false), ("errors", .list (build.errors.map Json.string))]

end Build

/-- Builds a graph: emits its script if nothing keeps it from being built. -/
def Graph.build (g : Graph) : Except Numeral.WriteError Build :=
  let problems := g.problems
  if problems.isEmpty then (Script.emit g).map fun source => ⟨source, problems⟩
  else .ok ⟨"", problems⟩

/-- Builds a graph under another name, if one is given. -/
def Graph.buildAs (g : Graph) (name : Option Text) : Except Numeral.WriteError Build :=
  (match name with
    | none => g
    | some name => g.rename name).build

end PipelineBoard
