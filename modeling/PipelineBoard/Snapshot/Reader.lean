-- Reading a graph out of a snapshot, after full inspection. A node has its
-- fields side by side, or, as the canvas exports it, inside its field `data`.
import PipelineBoard.Graph.Basic
import PipelineBoard.Snapshot.Inspection

namespace PipelineBoard

namespace Snapshot

open Inspection

/-! ## Fields -/

/-- The fields that describe the stage of a node: those inside `data`
override the ones beside it. -/
def stageFields (node : Fields) : Fields :=
  match node.get? "data" with
  | some (.object data) => node.overriddenBy data
  | _ => node

/-- The fields of an object. -/
def readObject (error : SchemaError) (value : Json) : Inspection Fields :=
  expect error value.fields?

/-- A field that must be there. -/
def readField (spot : Spot) (fields : Fields) (key : Text) : Inspection Json :=
  expect (.missing spot key) (fields.get? key)

/-- The items of a list. -/
def readList (field : Text) : Json → Inspection (List Json)
  | .list items => found items
  | _ => fail (.notList field)

/-- A text. -/
def readText (spot : Spot) (field : Text) : Json → Inspection Text
  | .string s => found s
  | _ => fail (.notText spot field)

/-- A text that may be absent or null, which both count as empty. -/
def readOptionalText (spot : Spot) (fields : Fields) (key : Text) : Inspection Text :=
  match fields.get? key with
  | none | some .null => found ""
  | some value => readText spot key value

/-- The params, which may be absent or null. -/
def readParams (spot : Spot) (fields : Fields) : Inspection Fields :=
  match fields.get? "params" with
  | none | some .null => found []
  | some (.object params) => do
    demand (Json.allFieldsPlain params) (.paramsNotPlain spot)
    return params
  | some _ => fail (.fieldNotObject spot "params")

/-- The canvas coordinates, each of any value and zero if absent. -/
def readPosition (spot : Spot) (fields : Fields) : Inspection Fields :=
  match fields.get? "position" with
  | none | some .null => found origin
  | some (.object position) =>
    found [("x", (Fields.get? position "x").getD (.real .zero)),
      ("y", (Fields.get? position "y").getD (.real .zero))]
  | some _ => fail (.fieldNotObject spot "position")

/-! ## Nodes -/

/-- Reads the node at an index into the graph of the nodes before it. The id
and the position stand beside `data` always. -/
def readNode (strict : Bool) (index : Nat) (g : Graph) (value : Json) : Inspection Graph := do
  let spot := Spot.node index
  let outer ← readObject (.itemNotObject spot) value
  let idValue ← readField spot outer "id"
  let id ← readText spot "id" idValue
  if fresh : id ∉ g.ids then do
    let fields := stageFields outer
    let kindValue ← readField spot fields "type"
    let kind ← readText spot "type" kindValue
    let label ← readOptionalText spot fields "label"
    let summary ← readOptionalText spot fields "summary"
    let params ← readParams spot fields
    let position ← readPosition spot outer
    if (Stage.ofName? kind).isNone then report strict (.unknownKind index kind)
    return g.push { id, kind, label, params, summary, position } fresh
  else fail (.duplicateId spot id)

/-- Reads the nodes from an index on. -/
def readNodes (strict : Bool) (index : Nat) (g : Graph) : List Json → Inspection Graph
  | [] => found g
  | value :: rest => do
    let g ← readNode strict index g value
    readNodes strict (index + 1) g rest

/-! ## Edges -/

/-- Reads one end of an edge. -/
def readEnd (strict : Bool) (index : Nat) (g : Graph) (which : End) (value : Json) :
    Inspection Text := do
  let id ← readText (.edge index) which.text value
  if !g.contains id then report strict (.danglingEnd index which id)
  return id

/-- Reads the edge at an index. -/
def readEdge (strict : Bool) (index : Nat) (g : Graph) (value : Json) : Inspection Edge := do
  let spot := Spot.edge index
  let fields ← readObject (.itemNotObject spot) value
  let sourceValue ← readField spot fields "source"
  let targetValue ← readField spot fields "target"
  let source ← readEnd strict index g .source sourceValue
  let target ← readEnd strict index g .target targetValue
  return { source, target, id := (fields.get? "id").getD .null }

/-- Reads the edges from an index on. -/
def readEdges (strict : Bool) (index : Nat) (g : Graph) : List Json → Inspection (List Edge)
  | [] => found []
  | value :: rest => do
    let edge ← readEdge strict index g value
    let edges ← readEdges strict (index + 1) g rest
    return edge :: edges

/-! ## Snapshots -/

/-- The project name; absent, null and empty stand for the default one. -/
def readName (fields : Fields) : Inspection Text :=
  match fields.get? "projectName" with
  | none | some .null => found defaultName
  | some (.string name) => found (nameOrDefault name)
  | some _ => fail .nameNotText

/-- Reads the graph of a snapshot. A strict reading refuses unknown kinds of
nodes and edges that name no node; otherwise both are kept with a notice. -/
def read (strict : Bool) (value : Json) : Inspection Graph := do
  let fields ← readObject .notObject value
  let nodesValue ← readField .root fields "nodes"
  let edgesValue ← readField .root fields "edges"
  let nodes ← readList "nodes" nodesValue
  let edges ← readList "edges" edgesValue
  let name ← readName fields
  let g ← readNodes strict 0 (Graph.empty name) nodes
  let edges ← readEdges strict 0 g edges
  return g.withEdges edges

/-- Inspects a snapshot without keeping its graph. -/
def validate (strict : Bool) (value : Json) : Inspection Unit := do
  let _ ← read strict value
  return ()

end Snapshot

end PipelineBoard
