-- A pipeline graph: nodes in the order of their insertion, and edges between
-- ids. No two nodes share an id.
import PipelineBoard.Json.Basic
import PipelineBoard.Stage
import PipelineBoard.Text.Quoted

namespace PipelineBoard

/-! ## Nodes and edges -/

/-- Canvas coordinates at zero. -/
def origin : Fields := [("x", .real .zero), ("y", .real .zero)]

/-- A node. Its kind is the name of a stage, or any other text. The canvas
coordinates are fields as the canvas gave them. -/
structure Node where
  id : Text
  kind : Text
  label : Text := ""
  params : Fields := []
  summary : Text := ""
  position : Fields := origin

/-- The stage that the kind names. -/
def Node.stage? (node : Node) : Option Stage := Stage.ofName? node.kind

/-- The node does the work of a stage. -/
def Node.is (node : Node) (stage : Stage) : Bool := node.stage? = some stage

/-- An edge between two ids. Its own id on the canvas is null if it has none,
and takes no part in a build. -/
structure Edge where
  source : Text
  target : Text
  id : Json := .null

/-- The edge starts or ends at an id. -/
def Edge.touches (edge : Edge) (id : Text) : Bool := edge.source = id || edge.target = id

/-! ## Graphs -/

/-- A pipeline graph. An edge may name an id that is no node. -/
structure Graph where
  name : Text
  nodes : List Node
  edges : List Edge
  ids_nodup : (nodes.map Node.id).Nodup

/-- The name of a project that was given none. -/
def defaultName : Text := "project"

/-- The given name, or the default one for an empty text. -/
def nameOrDefault (name : Text) : Text := if name.isEmpty then defaultName else name

theorem nameOrDefault_ne_empty (name : Text) : nameOrDefault name ≠ "" := by
  unfold nameOrDefault
  split
  · decide
  · rename_i h
    rwa [Text.isEmpty_iff] at h

theorem nameOrDefault_eq_self {name : Text} (h : name ≠ "") : nameOrDefault name = name := by
  unfold nameOrDefault
  rw [if_neg]
  rwa [Text.isEmpty_iff]

namespace Graph

/-- A graph without nodes. -/
def empty (name : Text) : Graph := ⟨name, [], [], by simp⟩

/-- The ids of the nodes in order. -/
def ids (g : Graph) : List Text := g.nodes.map Node.id

def contains (g : Graph) (id : Text) : Bool := g.ids.contains id

def find? (g : Graph) (id : Text) : Option Node := g.nodes.find? fun node => node.id = id

/-- The nodes that do the work of a stage. -/
def ofStage (g : Graph) (stage : Stage) : List Node := g.nodes.filter (·.is stage)

/-- The edges that end at an id. -/
def incoming (g : Graph) (id : Text) : List Edge := g.edges.filter fun edge => edge.target = id

/-- The edges that start at an id. -/
def outgoing (g : Graph) (id : Text) : List Edge := g.edges.filter fun edge => edge.source = id

/-- The graph with one more node at the end, under an id that no node has. -/
def push (g : Graph) (node : Node) (fresh : node.id ∉ g.ids) : Graph where
  name := g.name
  nodes := g.nodes ++ [node]
  edges := g.edges
  ids_nodup := by
    rw [List.map_append, List.nodup_append]
    refine ⟨g.ids_nodup, by simp, fun a ha b hb => ?_⟩
    rintro rfl
    simp only [List.map_cons, List.map_nil, List.mem_singleton] at hb
    exact fresh (hb ▸ ha)

/-- The graph with a node put in place of the node of the same id. -/
def replace (g : Graph) (node : Node) : Graph where
  name := g.name
  nodes := g.nodes.map fun old => if old.id = node.id then node else old
  edges := g.edges
  ids_nodup := by
    have same : (Node.id ∘ fun old => if old.id = node.id then node else old) = Node.id := by
      funext old
      simp only [Function.comp]
      split
      · next h => exact h.symm
      · rfl
    rw [List.map_map, same]
    exact g.ids_nodup

/-- The graph without the node of an id and without the edges that touch it. -/
def without (g : Graph) (id : Text) : Graph where
  name := g.name
  nodes := g.nodes.filter fun node => node.id != id
  edges := g.edges.filter fun edge => !edge.touches id
  ids_nodup := (List.filter_sublist.map Node.id).nodup g.ids_nodup

/-- The graph with other edges. -/
def withEdges (g : Graph) (edges : List Edge) : Graph := { g with edges }

/-- The graph under another name. -/
def rename (g : Graph) (name : Text) : Graph := { g with name }

@[simp] theorem ids_push (g : Graph) (node : Node) (fresh : node.id ∉ g.ids) :
    (g.push node fresh).ids = g.ids ++ [node.id] := by
  simp [ids, push]

theorem contains_iff (g : Graph) (id : Text) : g.contains id = true ↔ id ∈ g.ids := by
  simp [contains]

end Graph

/-! ## Graphs as text and as values -/

/-- A node as messages show it. -/
def Node.shown (node : Node) : Text :=
  "Node(" ++ node.id ++ ":" ++ node.kind ++ " " ++ Text.shown node.label ++ ")"

/-- An edge as messages show it. -/
def Edge.shown (edge : Edge) : Text := "Edge(" ++ edge.source ++ " -> " ++ edge.target ++ ")"

/-- A graph as messages show it. -/
def Graph.shown (g : Graph) : Text :=
  "Graph(" ++ Text.shown g.name ++ ", nodes=" ++ g.nodes.length.repr ++ ", edges=" ++
    g.edges.length.repr ++ ")"

/-- The snapshot of a node. -/
def Node.toJson (node : Node) : Json := .object [
  ("id", .string node.id), ("type", .string node.kind), ("label", .string node.label),
  ("params", .object node.params), ("summary", .string node.summary),
  ("position", .object node.position)]

/-- The snapshot of an edge; a null id is left out. -/
def Edge.toJson (edge : Edge) : Json :=
  let ends : Fields := [("source", .string edge.source), ("target", .string edge.target)]
  match edge.id with
  | .null => .object ends
  | id => .object (ends ++ ([("id", id)] : Fields))

/-- The snapshot of a graph. -/
def Graph.toJson (g : Graph) : Json := .object [
  ("nodes", .list (g.nodes.map Node.toJson)), ("edges", .list (g.edges.map Edge.toJson)),
  ("projectName", .string g.name)]

end PipelineBoard
