-- The actions on a board carried out in place, one write after the other. What
-- was written stays written when a later check fails.
import PipelineBoard.Board
import PipelineBoard.Snapshot.Passes

namespace PipelineBoard

/-! ## Writing one part of a graph -/

namespace Graph

/-- Puts a node under its id: in the place of the node that has it, or at the
end. -/
def put (g : Graph) (node : Node) : Graph :=
  if fresh : node.id ∉ g.ids then g.push node fresh else g.replace node

/-- Changes the node of an id. -/
def adjust (g : Graph) (id : Text) (change : Node → Node) : Graph :=
  match g.find? id with
  | some node => g.replace (change node)
  | none => g

theorem nodup_ids_without (g : Graph) (id : Text) :
    ((g.nodes.filter fun node => node.id != id).map Node.id).Nodup :=
  (g.without id).ids_nodup

/-- Takes the node of an id out of the nodes; edges may touch it still. -/
def dropNode (g : Graph) (id : Text) : Graph where
  name := g.name
  nodes := g.nodes.filter fun node => node.id != id
  edges := g.edges
  ids_nodup := g.nodup_ids_without id

/-- Takes out the edges that touch an id. -/
def dropEdges (g : Graph) (id : Text) : Graph :=
  g.withEdges (g.edges.filter fun edge => !edge.touches id)

end Graph

/-! ## Routines -/

/-- What a routine works on: the board, the supply of ids, and the notices
given so far. -/
structure Desk where
  board : Board
  ids : IdSupply
  notices : List Snapshot.Notice := []

/-- The desk with another graph on its board. -/
def Desk.withGraph (desk : Desk) (graph : Graph) : Desk :=
  { desk with board := { desk.board with graph } }

/-- Why a routine fails. -/
inductive Trouble where
  | edit (error : EditError)
  | load (fault : Snapshot.LoadFault)
  | write (error : Numeral.WriteError)

/-- A routine reads and writes a desk. When it fails, the desk stays as it is
at that moment. -/
abbrev Routine := ExceptT Trouble (StateM Desk)

namespace Routine

variable {α : Type}

/-- Carries out a routine: its result, and the desk afterwards. -/
def on (routine : Routine α) (desk : Desk) : Except Trouble α × Desk := routine.run.run desk

/-- Goes on with what a check gives. -/
def check : Except EditError α → Routine α
  | .ok value => pure value
  | .error e => throw (.edit e)

/-- The graph as it is now. -/
def graph : Routine Graph := return (← get).board.graph

/-- Writes the graph. -/
def write (change : Graph → Graph) : Routine Unit :=
  modify fun desk => desk.withGraph (change desk.board.graph)

/-- Writes the result of the last build. -/
def writeBuild (build : Option Build) : Routine Unit :=
  modify fun desk => { desk with board := { desk.board with lastBuild := build } }

/-- Draws a fresh id. -/
def draw (word : Text) : Routine Text :=
  modifyGet fun desk => ((desk.ids.draw word).1, { desk with ids := (desk.ids.draw word).2 })

/-- Gives notices. -/
def notify (notices : List Snapshot.Notice) : Routine Unit :=
  modify fun desk => { desk with notices := desk.notices ++ notices }

/-- Does something with a value that is given. -/
def given (value : Option α) (use : α → Routine Unit) : Routine Unit :=
  match value with
  | none => pure ()
  | some value => use value

/-! ## Nodes -/

/-- The node of an id. -/
def require (id : Text) : Routine Node := do
  check ((← graph).require id)

/-- Puts a node into the graph, after a look at its id. -/
def addNode (node : Node) : Routine Node := do
  if node.id ∈ (← graph).ids then throw (.edit (.nodeExists node.id))
  else do
    write (·.put node)
    return node

def createNode (kind : Text) (label : Option Text) (position : Option Json) : Routine Node :=
  match Stage.ofName? kind with
  | none => throw (.edit (.unknownStage kind))
  | some stage => do
    let id ← draw "node"
    let node : Node := { id, kind := stage.name, label := label.getD stage.name }
    match position with
    | none => addNode node
    | some value => do
      let position ← check (Graph.readPosition value)
      addNode { node with position }

/-- Takes out first the node and then the edges that touch it. -/
def removeNode (id : Text) : Routine Node := do
  let node ← require id
  write (·.dropNode id)
  write (·.dropEdges id)
  return node

/-- Writes the params of a node, after a look at them. -/
def updateParams (id : Text) (params : Option Json) : Routine Unit :=
  given params fun value => do
    let params ← check (Graph.checkParams id value)
    write (·.adjust id fun node => { node with params })

/-- Writes first the params, then the label, then the summary. -/
def updateNode (id : Text) (label summary : Option Text) (params : Option Json) :
    Routine Node := do
  let _ ← require id
  updateParams id params
  given label fun label => write (·.adjust id fun node => { node with label })
  given summary fun summary => write (·.adjust id fun node => { node with summary })
  require id

/-- Judges the text of params first, and updates the node then. -/
def updateNodeFrom (id : Text) (label summary : Option Text) (params : Option Json)
    (paramsText : Option Text) : Routine Node :=
  match paramsText with
  | none => updateNode id label summary params
  | some text => do
    let parsed ← check ((← graph).parseParams id text)
    updateNode id label summary (params.getD (.object parsed))

/-- Judges a text of params first, and writes the params of a node then. -/
def setParamsText (id text : Text) : Routine Node := do
  let parsed ← check ((← graph).parseParams id text)
  updateNode id none none (some (.object parsed))

def setPosition (id : Text) (x y : Json) : Routine Unit := do
  let _ ← require id
  write (·.adjust id fun node => { node with position := [("x", x), ("y", y)] })

/-- Looks for one node after the other. -/
def requireAll : List Text → Routine Unit
  | [] => pure ()
  | id :: rest => do
    let _ ← require id
    requireAll rest

def group (members : List Text) (label : Text) : Routine Node :=
  match members with
  | [] => throw (.edit .emptySelection)
  | first :: others => do
    let anchor ← require first
    requireAll others
    let id ← draw "comp"
    let position ← check (Graph.shifted anchor.position)
    let listed := (first :: others).eraseDups.map Json.string
    addNode {
      id, kind := Stage.composite.name, label, params := [("members", .list listed)],
      summary := "Node group", position }

/-! ## Edges -/

def addEdge (source target : Text) : Routine Edge := do
  let _ ← require source
  let _ ← require target
  let id ← draw "edge"
  let edge : Edge := { source, target, id := .string id }
  write fun g => g.withEdges (g.edges ++ [edge])
  return edge

def removeEdge (index : Int) : Routine Edge := do
  let edges := (← graph).edges
  if h : 0 ≤ index ∧ index.toNat < edges.length then do
    write fun g => g.withEdges (g.edges.eraseIdx index.toNat)
    return edges[index.toNat]
  else throw (.edit (Graph.noEdge index))

/-! ## Actions -/

/-- Reads a snapshot in two passes, and puts its graph in place of the current
one. -/
def load (strict : Bool) (snapshot : Json) : Routine Graph := do
  let (notices, outcome) := Snapshot.readInPasses strict snapshot
  notify notices
  match outcome with
  | .error fault => throw (.load fault)
  | .ok graph => do
    write fun _ => graph
    writeBuild none
    return graph

/-- Builds the graph, and writes the result. -/
def build : Routine Build := do
  match (← graph).build with
  | .error e => throw (.write e)
  | .ok build => do
    writeBuild (some build)
    return build

/-- The routine of an action. -/
def ofAction : Action → Routine Answer
  | .load snapshot strict => return .graph (← load strict snapshot)
  | .replaceCanvas nodes edges => do
    let name := (← graph).name
    return .graph (← load false (.object [
      ("nodes", nodes), ("edges", edges), ("projectName", .string name)]))
  | .rename name => do
    write (·.rename (nameOrDefault name))
    return .name (← graph).name
  | .createNode kind label position => return .node (← createNode kind label position)
  | .updateNode id label summary params paramsText =>
    return .node (← updateNodeFrom id label summary params paramsText)
  | .setPosition id x y => do
    setPosition id x y
    return .done
  | .removeNode id => return .node (← removeNode id)
  | .addEdge source target => return .edge (← addEdge source target)
  | .removeEdge index => return .edge (← removeEdge index)
  | .group members label => return .node (← group members label)
  | .build => return .build (← build)

end Routine

/-- An action carried out in place on a board. -/
def Board.carryOut (b : Board) (ids : IdSupply) (action : Action) :
    Except Trouble Answer × Desk :=
  (Routine.ofAction action).on { board := b, ids }

end PipelineBoard
