-- The bodies that routes expect. A body of another shape gives none.
import PipelineBoard.Http.Encoding
import PipelineBoard.Http.Message
import PipelineBoard.Http.Number

namespace PipelineBoard

namespace Http

/-! ## From a payload to a value -/

/-- Why a request has no value in its body. -/
inductive PayloadError where
  | missing
  | notJson
  | unreadable

/-- The value of a payload. Null and the empty text count as missing. -/
def readPayload : Payload → Except PayloadError Json
  | .none => .error .missing
  | .value .null => .error .missing
  | .value value => .ok value
  | .text text =>
    if text.isEmpty then .error .missing
    else
      match (decodeBody? text.toUTF8.toList).map Json.read with
      | none => .error .unreadable
      | some (.ok .null) => .error .missing
      | some (.ok value) => .ok value
      | some (.error (.malformed _ _)) => .error .notJson
      | some (.error (.tooManyDigits _)) => .error .unreadable

/-! ## Fields -/

/-- A text that must be there. -/
def text? (fields : Fields) (key : Text) : Option Text :=
  match fields.get? key with
  | some (.string s) => some s
  | _ => none

/-- A text that may be absent or null. -/
def optionalText? (fields : Fields) (key : Text) : Option (Option Text) :=
  match fields.get? key with
  | none | some .null => some none
  | some (.string s) => some (some s)
  | some _ => none

/-- An object that may be absent or null. -/
def optionalObject? (fields : Fields) (key : Text) : Option (Option Fields) :=
  match fields.get? key with
  | none | some .null => some none
  | some (.object inner) => some (some inner)
  | some _ => none

/-- A list that must be there, with every item an object. -/
def objects? (fields : Fields) (key : Text) : Option (List Json) :=
  match fields.get? key with
  | some (.list items) => if items.all fun item => item.fields?.isSome then some items else none
  | _ => none

/-- The text of a string value. -/
def string? : Json → Option Text
  | .string s => some s
  | _ => none

/-- A coordinate: a number within range, a boolean as one or zero, or a text
that writes a number. -/
def coordinate? : Json → Option Binary64
  | .real d => some d
  | .int n => if (Binary64.ofInt n).isFinite then some (Binary64.ofInt n) else none
  | .bool b => some (Binary64.ofInt b.toInt)
  | .string s => readReal? s
  | _ => none

/-- A coordinate that must be there. -/
def axis? (fields : Fields) (key : Text) : Option Binary64 :=
  (fields.get? key).bind coordinate?

/-- The fields with every value as a coordinate. -/
def coordinates? : Fields → Option Fields
  | [] => some []
  | (key, value) :: rest =>
    match coordinate? value, coordinates? rest with
    | some d, some rest => some ((key, .real d) :: rest)
    | _, _ => none

/-! ## Bodies -/

/-- The body of a request to create a node. -/
structure NewNode where
  kind : Text
  label : Option Text
  position : Option Fields

def NewNode.ofFields? (fields : Fields) : Option NewNode := do
  let kind ← text? fields "type"
  let label ← optionalText? fields "label"
  let given ← optionalObject? fields "position"
  match given with
  | none => some ⟨kind, label, none⟩
  | some inner => (coordinates? inner).map fun position => ⟨kind, label, some position⟩

/-- The body of a request to update a node. -/
structure NodeUpdate where
  label : Option Text
  summary : Option Text
  params : Option Fields
  paramsText : Option Text

def NodeUpdate.ofFields? (fields : Fields) : Option NodeUpdate := do
  let label ← optionalText? fields "label"
  let summary ← optionalText? fields "summary"
  let params ← optionalObject? fields "params"
  let paramsText ← optionalText? fields "params_text"
  some ⟨label, summary, params, paramsText⟩

/-- The body of a request to move a node. -/
structure NewPosition where
  x : Binary64
  y : Binary64

def NewPosition.ofFields? (fields : Fields) : Option NewPosition := do
  let x ← axis? fields "x"
  let y ← axis? fields "y"
  some ⟨x, y⟩

/-- The body of a request to add an edge. -/
structure NewEdge where
  source : Text
  target : Text

def NewEdge.ofFields? (fields : Fields) : Option NewEdge := do
  let source ← text? fields "source"
  let target ← text? fields "target"
  some ⟨source, target⟩

/-- The body of a request to group nodes. -/
structure NewGroup where
  members : List Text
  label : Text

def NewGroup.ofFields? (fields : Fields) : Option NewGroup := do
  let members ←
    match fields.get? "members" with
    | some (.list items) => items.mapM string?
    | _ => none
  match fields.get? "label" with
  | none => some ⟨members, "Composite"⟩
  | some value => (string? value).map (⟨members, ·⟩)

/-- The body of a request to put the canvas in place of the graph. -/
structure Canvas where
  nodes : List Json
  edges : List Json

def Canvas.ofFields? (fields : Fields) : Option Canvas := do
  let nodes ← objects? fields "nodes"
  let edges ← objects? fields "edges"
  some ⟨nodes, edges⟩

end Http

end PipelineBoard
