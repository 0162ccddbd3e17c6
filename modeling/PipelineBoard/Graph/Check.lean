-- What keeps a graph from being built: the stages that it lacks, and cycles.
import PipelineBoard.Graph.Order

namespace PipelineBoard

/-- A reason why a graph cannot be built. -/
inductive Problem where
  | missing (stage : Stage)
  | cycle
deriving DecidableEq

def Problem.message : Problem → Text
  | .missing stage => "Missing " ++ stage.name ++ " node"
  | .cycle => "Graph contains a cycle"

namespace Graph

/-- The required stages that no node does the work of. -/
def lacking (g : Graph) : List Stage :=
  Stage.required.filter fun stage => !g.nodes.any (·.is stage)

/-- Every reason why the graph cannot be built: the stages that it lacks in
the order of the requirement, then a cycle if some node has no place in the
dependency order. -/
def problems (g : Graph) : List Problem :=
  g.lacking.map .missing ++ if g.order.length = g.nodes.length then [] else [.cycle]

end Graph

end PipelineBoard
