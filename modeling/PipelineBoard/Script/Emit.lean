-- A whole script: its header, the fragments of the stages in a fixed order,
-- and the line that saves the model.
import PipelineBoard.Graph.Check
import PipelineBoard.Script.Fragment

namespace PipelineBoard

namespace Script

/-! ## Header and footer -/

/-- The file that the trained model is saved to. -/
def artifactName (name : Text) : Text := nameOrDefault name ++ ".pt"

def header (name : Text) : List Text := [
  "# Auto-generated by mlboard",
  "# Project: " ++ Text.oneLine name,
  "import torch",
  "import torch.nn as nn",
  "import torch.optim as optim",
  "from torch.utils.data import DataLoader",
  "",
  "# ---- Config ----",
  "device = \"cuda\" if torch.cuda.is_available() else \"cpu\"",
  ""]

def footer (name : Text) : List Text := [
  "# Save model",
  "torch.save(model.state_dict(), " ++
    Text.ofList (Text.doubleQuoted (artifactName name).toList) ++ ")"]

/-! ## The script -/

/-- The stages in the order of their fragments: metrics come after the
training that they measure. -/
def stages : List Stage :=
  [.data, .transform, .split, .model, .loss, .optimizer, .trainer, .metric, .composite]

/-- Writes the fragment of a stage, if a node does its work. -/
def fragment (nodes : List Node) (w : Writer) (stage : Stage) : Writer :=
  let group := nodes.filter (·.is stage)
  if group.isEmpty then w else Fragment.group stage group w

/-- The lines of the script of nodes in the order of their dependencies. -/
def write (name : Text) (nodes : List Node) : Writer :=
  let w := Writer.all (header name) {}
  let w := stages.foldl (fragment nodes) w
  w.all (footer name)

/-- The script of a graph with its nodes in the given order. Ids of no node
are passed over. -/
def emitIn (g : Graph) (order : List Text) : Except Numeral.WriteError Text :=
  (write (nameOrDefault g.name) (order.filterMap g.find?)).text.map (· ++ "\n")

/-- The script of a graph. -/
def emit (g : Graph) : Except Numeral.WriteError Text := emitIn g g.order

/-! ## Errors in place of a script -/

/-- A block of comments that lists errors. -/
def errorBlock (errors : List Text) : Text :=
  Text.intercalate "\n" ("# Graph errors:" :: errors.map fun error => "# - " ++ error) ++ "\n"

end Script

end PipelineBoard
