-- A snapshot read in two passes: an inspection of the whole value that keeps
-- nothing of it, then a decoding that looks up every field again and takes it
-- as it stands. The decoding checks nothing, so it has faults of its own.
import PipelineBoard.Snapshot.Reader

namespace PipelineBoard

namespace Snapshot

open Inspection

/-! ## The inspection -/

/-- Inspects the node at an index, behind nodes with the given ids. It gives
those ids and the node's own. -/
def inspectNode (strict : Bool) (index : Nat) (seen : List Text) (value : Json) :
    Inspection (List Text) := do
  let spot := Spot.node index
  let node ← readObject (.itemNotObject spot) value
  let idValue ← readField spot node "id"
  let id ← readText spot "id" idValue
  demand (!seen.contains id) (.duplicateId spot id)
  let fields := stageFields node
  let kindValue ← readField spot fields "type"
  let kind ← readText spot "type" kindValue
  let _ ← readOptionalText spot fields "label"
  let _ ← readOptionalText spot fields "summary"
  let _ ← readParams spot fields
  let _ ← readPosition spot node
  if (Stage.ofName? kind).isNone then report strict (.unknownKind index kind)
  return seen ++ [id]

/-- Inspects the nodes from an index on. -/
def inspectNodes (strict : Bool) (index : Nat) (seen : List Text) :
    List Json → Inspection (List Text)
  | [] => found seen
  | value :: rest => do
    let seen ← inspectNode strict index seen value
    inspectNodes strict (index + 1) seen rest

/-- Inspects one end of an edge between nodes with the given ids. -/
def inspectEnd (strict : Bool) (index : Nat) (seen : List Text) (which : End) (value : Json) :
    Inspection Unit := do
  let id ← readText (.edge index) which.text value
  if !seen.contains id then report strict (.danglingEnd index which id)

/-- Inspects the edge at an index. -/
def inspectEdge (strict : Bool) (index : Nat) (seen : List Text) (value : Json) :
    Inspection Unit := do
  let spot := Spot.edge index
  let edge ← readObject (.itemNotObject spot) value
  let sourceValue ← readField spot edge "source"
  let targetValue ← readField spot edge "target"
  inspectEnd strict index seen .source sourceValue
  inspectEnd strict index seen .target targetValue

/-- Inspects the edges from an index on. -/
def inspectEdges (strict : Bool) (index : Nat) (seen : List Text) : List Json → Inspection Unit
  | [] => found ()
  | value :: rest => do
    inspectEdge strict index seen value
    inspectEdges strict (index + 1) seen rest

/-- Inspects a whole snapshot. -/
def inspect (strict : Bool) (value : Json) : Inspection Unit := do
  let fields ← readObject .notObject value
  let nodesValue ← readField .root fields "nodes"
  let edgesValue ← readField .root fields "edges"
  let nodes ← readList "nodes" nodesValue
  let edges ← readList "edges" edgesValue
  let _ ← readName fields
  let seen ← inspectNodes strict 0 [] nodes
  inspectEdges strict 0 seen edges

/-! ## The decoding -/

/-- What can go wrong with a value that was not inspected: a field that is not
there, a value that its place cannot hold, and a second node of one id. -/
inductive DecodeFault where
  | missing (field : Text)
  | unsuitable (place : Text)
  | duplicate (id : Text)

/-- A value that stands for an absent one where a default is taken: null,
false, zero, and an empty text, list or object. -/
def isVoid : Json → Bool
  | .null => true
  | .bool b => !b
  | .int n => n = 0
  | .real .nan => false
  | .real (.signed _ place) => place.val = 0
  | .string s => s.isEmpty
  | .list items => items.isEmpty
  | .object fields => fields.isEmpty

/-- The text of a field. -/
def decodeText (fields : Fields) (key : Text) : Except DecodeFault Text :=
  match fields.get? key with
  | some (.string s) => .ok s
  | some _ => .error (.unsuitable key)
  | none => .error (.missing key)

/-- The text of a field, or a default. -/
def decodeTextOr (default : Text) (fields : Fields) (key : Text) :
    Except DecodeFault Text :=
  match fields.get? key with
  | none => .ok default
  | some value =>
    if isVoid value then .ok default
    else
      match value with
      | .string s => .ok s
      | _ => .error (.unsuitable key)

/-- The items of a list. -/
def decodeList (fields : Fields) (key : Text) : Except DecodeFault (List Json) :=
  match fields.get? key with
  | some (.list items) => .ok items
  | some _ => .error (.unsuitable key)
  | none => .error (.missing key)

def decodeParams (fields : Fields) : Except DecodeFault Fields :=
  match fields.get? "params" with
  | none => .ok []
  | some value =>
    if isVoid value then .ok []
    else
      match value with
      | .object params => .ok params
      | _ => .error (.unsuitable "params")

/-- The canvas coordinates; anything but an object stands for the default. -/
def decodePosition (fields : Fields) : Fields :=
  match fields.get? "position" with
  | some (.object position) =>
    [("x", (Fields.get? position "x").getD (.real .zero)),
      ("y", (Fields.get? position "y").getD (.real .zero))]
  | _ => origin

/-- Decodes a node. -/
def decodeNode : Json → Except DecodeFault Node
  | .object node => do
    let fields := stageFields node
    let id ← decodeText node "id"
    let kind ← decodeText fields "type"
    let label ← decodeTextOr "" fields "label"
    let params ← decodeParams fields
    let summary ← decodeTextOr "" fields "summary"
    return { id, kind, label, params, summary, position := decodePosition node }
  | _ => .error (.unsuitable "nodes")

/-- Decodes nodes into the graph of the nodes before them. -/
def decodeNodes (g : Graph) : List Json → Except DecodeFault Graph
  | [] => .ok g
  | value :: rest => do
    let node ← decodeNode value
    if fresh : node.id ∉ g.ids then decodeNodes (g.push node fresh) rest
    else .error (.duplicate node.id)

/-- Decodes an edge. -/
def decodeEdge : Json → Except DecodeFault Edge
  | .object edge => do
    let source ← decodeText edge "source"
    let target ← decodeText edge "target"
    return { source, target, id := (Fields.get? edge "id").getD .null }
  | _ => .error (.unsuitable "edges")

/-- Decodes a whole snapshot. -/
def decode : Json → Except DecodeFault Graph
  | .object fields => do
    let name ← decodeTextOr defaultName fields "projectName"
    let nodes ← decodeList fields "nodes"
    let g ← decodeNodes (Graph.empty name) nodes
    let edges ← decodeList fields "edges"
    return g.withEdges (← edges.mapM decodeEdge)
  | _ => .error (.unsuitable "snapshot")

/-! ## Both passes -/

/-- Why a value gives no graph: the inspection refuses it, or the decoding of
what it let through goes wrong. -/
inductive LoadFault where
  | schema (error : SchemaError)
  | decode (fault : DecodeFault)

/-- The notices of the inspection, and the decoded graph or what went wrong. -/
def readInPasses (strict : Bool) (value : Json) : List Notice × Except LoadFault Graph :=
  let inspection := inspect strict value
  (inspection.notices,
    match inspection.result with
    | .error e => .error (.schema e)
    | .ok () => (decode value).mapError .decode)

end Snapshot

end PipelineBoard
