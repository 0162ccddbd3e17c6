-- Editing a graph: each edit either gives the edited graph or a cause of
-- failure, and fresh ids come from a supply.
import PipelineBoard.Graph.Basic
import PipelineBoard.Json.Reader
import PipelineBoard.Number.Numeral
import PipelineBoard.Text.Blank

namespace PipelineBoard

/-! ## Fresh ids -/

/-- Where fresh ids come from: the id of each word and serial number, and how
many have been drawn. Nothing says that an id is not in use already. -/
structure IdSupply where
  name : Text → Nat → Text
  drawn : Nat := 0

/-- The next id and the supply without it. -/
def IdSupply.draw (ids : IdSupply) (word : Text) : Text × IdSupply :=
  (ids.name word (ids.drawn + 1), { ids with drawn := ids.drawn + 1 })

/-- Ids of a word, an underscore and the serial number in seven hexadecimal
digits or more. -/
def IdSupply.serial : IdSupply where
  name word serial :=
    let digits := Nat.toDigits 16 serial
    word ++ "_" ++ String.ofList (List.replicate (7 - digits.length) '0' ++ digits)

/-! ## Why an edit fails -/

inductive EditError where
  | nodeNotFound (id : Text)
  | nodeExists (id : Text)
  | unknownStage (kind : Text)
  | emptySelection
  | edgeOutOfRange (index : Int)
  | missingCoordinate (axis : Text)
  | unreadableCoordinate (text : Text)
  | coordinateNoNumber
  | coordinateTooLarge
  | paramsNotObject (id : Text)
  | paramsNotJson (id : Text) (fault : Json.Fault) (place : Json.Place)
  | paramsTooManyDigits (count : Nat)
  | indexTooManyDigits

def EditError.message : EditError → Text
  | .nodeNotFound id => "Node '" ++ id ++ "' not found"
  | .nodeExists id => "Node with id '" ++ id ++ "' already exists in the graph"
  | .unknownStage kind => "Unknown node type '" ++ kind ++ "'"
  | .emptySelection => "Cannot group an empty selection"
  | .edgeOutOfRange index => "Edge index " ++ index.repr ++ " out of range"
  | .missingCoordinate axis => axis
  | .unreadableCoordinate text => "could not convert string to float: " ++ Text.shown text
  | .coordinateNoNumber => "a coordinate must be a number"
  | .coordinateTooLarge => "int too large to convert to float"
  | .paramsNotObject id => "params for node '" ++ id ++ "' must be a JSON object"
  | .paramsNotJson id fault place =>
    "params for node '" ++ id ++ "' are not valid JSON: " ++
      (Json.ReadError.malformed fault place).message
  | .paramsTooManyDigits count => Numeral.tooManyDigitsText count
  | .indexTooManyDigits => Numeral.WriteError.tooManyDigits.message

/-- What an edit answers together with the edited graph. -/
abbrev Edited (α : Type) := Except EditError (α × Graph)

namespace Graph

/-! ## Nodes -/

/-- The node of an id. -/
def require (g : Graph) (id : Text) : Except EditError Node :=
  match g.find? id with
  | some node => .ok node
  | none => .error (.nodeNotFound id)

/-- Adds a node at the end, unless its id is in use. -/
def add (g : Graph) (node : Node) : Edited Node :=
  if h : node.id ∈ g.ids then .error (.nodeExists node.id) else .ok (node, g.push node h)

/-- A coordinate as a real number: numbers, booleans as one and zero, and
texts that write a number. -/
def readCoordinate : Json → Except EditError Binary64
  | .real d => .ok d
  | .int n =>
    if (Binary64.ofInt n).isFinite then .ok (Binary64.ofInt n) else .error .coordinateTooLarge
  | .bool b => .ok (Binary64.ofInt b.toInt)
  | .string s =>
    match Numeral.readReal? s with
    | some d => .ok d
    | none => .error (.unreadableCoordinate s)
  | _ => .error .coordinateNoNumber

/-- One coordinate of a position. -/
def readAxis (fields : Fields) (axis : Text) : Except EditError Json :=
  match fields.get? axis with
  | some value => (readCoordinate value).map Json.real
  | none => .error (.missingCoordinate axis)

/-- A position with both coordinates as real numbers. -/
def readPosition : Json → Except EditError Fields
  | .object fields =>
    match readAxis fields "x" with
    | .error e => .error e
    | .ok x => (readAxis fields "y").map fun y => [("x", x), ("y", y)]
  | _ => .error .coordinateNoNumber

/-- Adds a node of a stage under a fresh id. The id is drawn once the stage
is known, even if the edit fails afterwards. -/
def createNode (g : Graph) (ids : IdSupply) (kind : Text) (label : Option Text)
    (position : Option Json) : Edited Node × IdSupply :=
  match Stage.ofName? kind with
  | none => (.error (.unknownStage kind), ids)
  | some stage =>
    let (id, ids) := ids.draw "node"
    let node : Node := { id, kind := stage.name, label := label.getD stage.name }
    match position with
    | none => (g.add node, ids)
    | some value =>
      match readPosition value with
      | .error e => (.error e, ids)
      | .ok position => (g.add { node with position }, ids)

/-- Removes a node and every edge that touches it. -/
def removeNode (g : Graph) (id : Text) : Edited Node :=
  (g.require id).map fun node => (node, g.without id)

/-- Params are an object of values that params may hold. -/
def checkParams (id : Text) : Json → Except EditError Fields
  | .object fields =>
    if Json.allFieldsPlain fields then .ok fields else .error (.paramsNotObject id)
  | _ => .error (.paramsNotObject id)

/-- The params that a node has after an update: the given ones, if any. -/
def updatedParams (node : Node) : Option Json → Except EditError Fields
  | none => .ok node.params
  | some value => checkParams node.id value

/-- Puts the given label, summary and params in place of a node's own. -/
def updateNode (g : Graph) (id : Text) (label summary : Option Text)
    (params : Option Json) : Edited Node :=
  match g.require id with
  | .error e => .error e
  | .ok node =>
    (updatedParams node params).map fun params =>
      let node :=
        { node with label := label.getD node.label, summary := summary.getD node.summary, params }
      (node, g.replace node)

/-- The params that a text writes for a node. A blank text writes none. -/
def parseParams (g : Graph) (id text : Text) : Except EditError Fields :=
  match g.require id with
  | .error e => .error e
  | .ok _ =>
    if Text.isAllBlank text then .ok []
    else
      match Json.read text with
      | .ok value => checkParams id value
      | .error (.malformed fault place) => .error (.paramsNotJson id fault place)
      | .error (.tooManyDigits count) => .error (.paramsTooManyDigits count)

/-- Puts the params that a text writes in place of a node's own. -/
def setParamsText (g : Graph) (id text : Text) : Edited Node :=
  match g.parseParams id text with
  | .error e => .error e
  | .ok params => g.updateNode id none none (some (.object params))

/-- Puts a node at a position. -/
def setPosition (g : Graph) (id : Text) (x y : Json) : Edited Unit :=
  (g.require id).map fun node =>
    ((), g.replace { node with position := [("x", x), ("y", y)] })

/-! ## Groups -/

/-- A coordinate moved by 60. A coordinate that is absent counts as zero, and
booleans as one and zero. -/
def shiftedAxis (position : Fields) (axis : Text) : Except EditError Json :=
  match position.get? axis with
  | none => .ok (.real (Binary64.zero.add (.ofInt 60)))
  | some (.real d) => .ok (.real (d.add (.ofInt 60)))
  | some (.int n) => .ok (.int (n + 60))
  | some (.bool b) => .ok (.int (b.toInt + 60))
  | some _ => .error .coordinateNoNumber

/-- A position moved by 60 on both axes. -/
def shifted (position : Fields) : Except EditError Fields :=
  match shiftedAxis position "x" with
  | .error e => .error e
  | .ok x => (shiftedAxis position "y").map fun y => [("x", x), ("y", y)]

/-- Adds a composite node that lists the members, each once, beside the
first of them. The members stay as they are. The id is drawn once every
member is found, even if the edit fails afterwards. -/
def group (g : Graph) (ids : IdSupply) (members : List Text) (label : Text) :
    Edited Node × IdSupply :=
  match members with
  | [] => (.error .emptySelection, ids)
  | first :: others =>
    match g.require first with
    | .error e => (.error e, ids)
    | .ok anchor =>
      match others.find? fun id => !g.contains id with
      | some id => (.error (.nodeNotFound id), ids)
      | none =>
        let (id, ids) := ids.draw "comp"
        match shifted anchor.position with
        | .error e => (.error e, ids)
        | .ok position =>
          let listed := (first :: others).eraseDups.map Json.string
          let node : Node :=
            { id, kind := Stage.composite.name, label, params := [("members", .list listed)],
              summary := "Node group", position }
          (g.add node, ids)

/-! ## Edges -/

/-- Adds an edge between two nodes. Its id is the given one, or a fresh one
if that is empty. -/
def addEdge (g : Graph) (ids : IdSupply) (source target : Text) (id : Text) :
    Edited Edge × IdSupply :=
  match g.require source, g.require target with
  | .error e, _ => (.error e, ids)
  | _, .error e => (.error e, ids)
  | .ok _, .ok _ =>
    let (id, ids) := if id.isEmpty then ids.draw "edge" else (id, ids)
    let edge : Edge := { source, target, id := .string id }
    (.ok (edge, g.withEdges (g.edges ++ [edge])), ids)

/-- There is no edge at an index, which the message shows. -/
def noEdge (index : Int) : EditError :=
  if Numeral.isShort index then .edgeOutOfRange index else .indexTooManyDigits

/-- Removes the edge at an index. -/
def removeEdge (g : Graph) (index : Int) : Edited Edge :=
  if 0 ≤ index then
    match g.edges[index.toNat]? with
    | some edge => .ok (edge, g.withEdges (g.edges.eraseIdx index.toNat))
    | none => .error (noEdge index)
  else .error (noEdge index)

end Graph

end PipelineBoard
