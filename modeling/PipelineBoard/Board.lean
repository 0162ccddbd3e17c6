-- The board: the graph that is being edited and the result of its last build.
-- One step takes an action and gives the next board, in failure too.
import PipelineBoard.Build
import PipelineBoard.Graph.Edit
import PipelineBoard.Snapshot.Reader

namespace PipelineBoard

/-- The current graph and the result of the last build since it was loaded. -/
structure Board where
  graph : Graph
  lastBuild : Option Build := none

/-! ## Actions and answers -/

/-- What can be done with a board. -/
inductive Action where
  | load (snapshot : Json) (strict : Bool)
  | replaceCanvas (nodes edges : Json)
  | rename (name : Text)
  | createNode (kind : Text) (label : Option Text) (position : Option Json)
  | updateNode (id : Text) (label summary : Option Text) (params : Option Json)
      (paramsText : Option Text)
  | setPosition (id : Text) (x y : Json)
  | removeNode (id : Text)
  | addEdge (source target : Text)
  | removeEdge (index : Int)
  | group (members : List Text) (label : Text)
  | build

/-- What an action answers. -/
inductive Answer where
  | graph (g : Graph)
  | name (name : Text)
  | node (node : Node)
  | edge (edge : Edge)
  | build (build : Build)
  | done

/-- Why an action fails. -/
inductive ActionError where
  | edit (error : EditError)
  | schema (error : Snapshot.SchemaError)
  | write (error : Numeral.WriteError)

/-- What comes of an action: the next board and supply of ids, the notices
that were given, and the answer or the error. -/
structure Step where
  board : Board
  ids : IdSupply
  notices : List Snapshot.Notice
  result : Except ActionError Answer

namespace Board

/-- A board with an empty graph. -/
def new (name : Text) : Board := ⟨Graph.empty name, none⟩

/-- The graph as a snapshot. -/
def snapshot (b : Board) : Json := b.graph.toJson

/-! ## One step -/

/-- The step of an edit: the edited graph, or the same board. -/
def edited {α : Type} (b : Board) (answer : α → Answer) (outcome : Edited α × IdSupply) : Step :=
  match outcome with
  | (.ok (value, graph), ids) => ⟨{ b with graph }, ids, [], .ok (answer value)⟩
  | (.error e, ids) => ⟨b, ids, [], .error (.edit e)⟩

/-- Puts the graph of a snapshot in place of the current one, after full
inspection, and forgets the last build. -/
def load (b : Board) (ids : IdSupply) (strict : Bool) (snapshot : Json) : Step :=
  let inspection := Snapshot.read strict snapshot
  match inspection.result with
  | .ok graph => ⟨⟨graph, none⟩, ids, inspection.notices, .ok (.graph graph)⟩
  | .error e => ⟨b, ids, inspection.notices, .error (.schema e)⟩

/-- Updates a node. A text of params is judged even where params are given
besides, which win over it. -/
def updateNode (b : Board) (id : Text) (label summary : Option Text) (params : Option Json)
    (paramsText : Option Text) : Edited Node :=
  match paramsText with
  | none => b.graph.updateNode id label summary params
  | some text =>
    match b.graph.parseParams id text with
    | .error e => .error e
    | .ok parsed => b.graph.updateNode id label summary (params.getD (.object parsed))

/-- Builds the graph and keeps the result, if there is one. -/
def build (b : Board) (ids : IdSupply) : Step :=
  match b.graph.build with
  | .ok build => ⟨{ b with lastBuild := some build }, ids, [], .ok (.build build)⟩
  | .error e => ⟨b, ids, [], .error (.write e)⟩

/-- The step of an action. -/
def step (b : Board) (ids : IdSupply) : Action → Step
  | .load snapshot strict => b.load ids strict snapshot
  | .replaceCanvas nodes edges =>
    b.load ids false (.object [
      ("nodes", nodes), ("edges", edges), ("projectName", .string b.graph.name)])
  | .rename name =>
    let name := nameOrDefault name
    ⟨{ b with graph := b.graph.rename name }, ids, [], .ok (.name name)⟩
  | .createNode kind label position =>
    b.edited .node (b.graph.createNode ids kind label position)
  | .updateNode id label summary params paramsText =>
    b.edited .node (b.updateNode id label summary params paramsText, ids)
  | .setPosition id x y => b.edited (fun _ => .done) (b.graph.setPosition id x y, ids)
  | .removeNode id => b.edited .node (b.graph.removeNode id, ids)
  | .addEdge source target => b.edited .edge (b.graph.addEdge ids source target "")
  | .removeEdge index => b.edited .edge (b.graph.removeEdge index, ids)
  | .group members label => b.edited .node (b.graph.group ids members label)
  | .build => b.build ids

/-! ## The demo graph -/

/-- A node of the demo graph. -/
structure DemoNode where
  stage : Stage
  label : Text
  x : Int
  y : Int
  params : Fields := []

/-- The nodes of the demo graph: a small image classifier. -/
def demoNodes : List DemoNode := [
  ⟨.data, "MNIST", 80, 100, [("root", .string "./data"), ("download", .bool true)]⟩,
  ⟨.split, "Split", 300, 100, Fragment.defaultSplit⟩,
  ⟨.model, "MLP", 520, 100, []⟩,
  ⟨.loss, "CrossEntropy", 520, 260, []⟩,
  ⟨.optimizer, "Adam", 740, 100, [("lr", Fragment.defaultRate)]⟩,
  ⟨.trainer, "Trainer", 960, 180, [("epochs", .int 3), ("batch_size", .int 64)]⟩,
  ⟨.metric, "Accuracy", 1180, 180, []⟩]

/-- The edges of the demo graph, between places in the list of its nodes. -/
def demoEdges : List (Nat × Nat) := [(0, 1), (1, 2), (2, 4), (4, 5), (3, 5), (5, 6)]

/-- Adds the nodes of the demo graph one after the other. -/
def seedNodes (g : Graph) (ids : IdSupply) : List DemoNode → Except EditError Graph × IdSupply
  | [] => (.ok g, ids)
  | demo :: rest =>
    let position : Json := .object [("x", .int demo.x), ("y", .int demo.y)]
    match g.createNode ids demo.stage.name (some demo.label) (some position) with
    | (.error e, ids) => (.error e, ids)
    | (.ok (node, g), ids) => seedNodes (g.replace { node with params := demo.params }) ids rest

/-- Adds the edges of the demo graph one after the other. -/
def seedEdges (g : Graph) (ids : IdSupply) :
    List (Nat × Nat) → Except EditError Graph × IdSupply
  | [] => (.ok g, ids)
  | (source, target) :: rest =>
    match g.addEdge ids (g.ids.getD source "") (g.ids.getD target "") "" with
    | (.error e, ids) => (.error e, ids)
    | (.ok (_, g), ids) => seedEdges g ids rest

/-- A board with the demo graph. It fails only if the supply gives an id twice. -/
def seeded (name : Text) (ids : IdSupply) : Except EditError Board × IdSupply :=
  match seedNodes (Graph.empty name) ids demoNodes with
  | (.error e, ids) => (.error e, ids)
  | (.ok g, ids) =>
    match seedEdges g ids demoEdges with
    | (.error e, ids) => (.error e, ids)
    | (.ok g, ids) => (.ok ⟨g, none⟩, ids)

end Board

end PipelineBoard
