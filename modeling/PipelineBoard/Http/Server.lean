-- The server: each request is judged, becomes at most one action on the board,
-- and gets one response.
import PipelineBoard.Board
import PipelineBoard.Http.Body
import PipelineBoard.Http.Disposition
import PipelineBoard.Http.Route
import PipelineBoard.Http.Target
import PipelineBoard.Script.FileName
import PipelineBoard.Settings

namespace PipelineBoard

namespace Http

/-- The board of a server, its supply of ids and what encodes its answers. -/
structure Server where
  board : Board
  ids : IdSupply
  encoder : Encoder := .limited

namespace Server

/-- A server with an empty board, or with the demo graph. -/
def new (ids : IdSupply) (name : Text) (seedDemo : Bool) : Except EditError Server :=
  if seedDemo then
    match Board.seeded name ids with
    | (.ok board, ids) => .ok { board, ids }
    | (.error e, _) => .error e
  else .ok { board := .new name, ids }

/-- A server as the settings say. -/
def ofSettings (ids : IdSupply) (settings : Settings) : Except EditError Server :=
  new ids settings.projectName settings.seedDemo

/-! ## Responses to actions -/

/-- Takes an action and answers what comes of it. -/
def act (s : Server) (action : Action) (answer : Board → Answer → Response)
    (failure : ActionError → Response) : Server × Response :=
  let step := s.board.step s.ids action
  let next : Server := { s with board := step.board, ids := step.ids }
  match step.result with
  | .ok value => (next, answer step.board value)
  | .error e => (next, failure e)

/-- The response that carries the snapshot of the board. -/
def snapshotResponse (board : Board) (_ : Answer) : Response :=
  .ofJson 200 board.snapshot

/-- The response that carries what an action answered. -/
def answerResponse (status : Nat) (_ : Board) : Answer → Response
  | .node node => .ofJson status node.toJson
  | .edge edge => .ofJson status edge.toJson
  | .build build => .ofJson status build.toJson
  | .name name => .ofJson status (.object [("projectName", .string name)])
  | .graph g => .ofJson status g.toJson
  | .done => .noContent

def emptyResponse (_ : Board) (_ : Answer) : Response := .noContent

/-- A snapshot that was refused. -/
def snapshotFailure : ActionError → Response
  | .schema e => .detail 400 e.message
  | .edit _ => .serverError
  | .write _ => .serverError

/-- The status for the causes of failure, where a route answers an id that is
not there by `absent` and bad input by `bad`; other causes it has no answer
for. -/
def editFailure (absent : Option Nat) (bad : EditError → Option Nat) : ActionError → Response
  | .schema _ => .serverError
  | .write _ => .serverError
  | .edit e =>
    match e, absent with
    | .nodeNotFound _, some status => .detail status e.message
    | .edgeOutOfRange _, some status => .detail status e.message
    | _, _ =>
      match bad e with
      | some status => .detail status e.message
      | none => .serverError

/-- Nothing is bad input. -/
def noBad (_ : EditError) : Option Nat := none

/-- Params that are no object of plain values. -/
def badParams : EditError → Option Nat
  | .paramsNotObject _ => some 400
  | .paramsNotJson .. => some 400
  | _ => none

/-- A selection that cannot be grouped. -/
def badGroup : EditError → Option Nat
  | .emptySelection => some 400
  | .nodeExists _ => some 400
  | _ => none

/-- A node that was not created. The axis of a missing coordinate is shown
between quotes. -/
def createFailure : ActionError → Response
  | .edit (.missingCoordinate axis) => .detail 400 (Text.shown axis)
  | .edit (.coordinateNoNumber) => .serverError
  | .edit (.coordinateTooLarge) => .serverError
  | .edit e => .detail 400 e.message
  | .schema _ => .serverError
  | .write _ => .serverError

/-! ## Routes -/

/-- Reads the fields of the body, and answers for a body that has none. -/
def withFields (s : Server) (payload : Payload) (go : Fields → Server × Response) :
    Server × Response :=
  match readPayload payload with
  | .ok (.object fields) => go fields
  | .ok _ => (s, .unprocessable)
  | .error .missing => (s, .unprocessable)
  | .error .notJson => (s, .unprocessable)
  | .error .unreadable => (s, .detail 400 "There was an error parsing the body")

/-- Reads the body by its shape, and answers for a body of another shape. -/
def withBody {α : Type} (s : Server) (payload : Payload) (shape : Fields → Option α)
    (go : α → Server × Response) : Server × Response :=
  s.withFields payload fun fields =>
    match shape fields with
    | some body => go body
    | none => (s, .unprocessable)

/-- The response that carries a script as a file. -/
def scriptResponse (board : Board) : Answer → Response
  | .build build =>
    match disposition (Script.fileName board.graph.name) with
    | some header => ⟨200, .text build.text, some header⟩
    | none => .serverError
  | _ => .serverError

/-- The title of the server's interface. -/
def title : Text := "mlboard API"

/-- What the server tells programs about its interface. -/
def description : Json :=
  .object [("openapi", .string "3.1.0"),
    ("info", .object [("title", .string title), ("version", .string "0.1.0")])]

/-- The response of a route to a method that it takes. -/
def answer (s : Server) (method : Text) (payload : Payload) : Route → Server × Response
  | .health => (s, .ofJson 200 (.object [("status", .string "ok")]))
  | .graph =>
    if method = "GET" then (s, .ofJson 200 s.board.snapshot)
    else s.withFields payload fun fields =>
      s.act (.load (.object fields) false) snapshotResponse snapshotFailure
  | .canvas => s.withBody payload Canvas.ofFields? fun body =>
      s.act (.replaceCanvas (.list body.nodes) (.list body.edges)) snapshotResponse snapshotFailure
  | .project => s.withBody payload (text? · "name") fun name =>
      s.act (.rename (Text.trim name)) (answerResponse 200) (editFailure none noBad)
  | .nodes => s.withBody payload NewNode.ofFields? fun body =>
      s.act (.createNode body.kind body.label (body.position.map Json.object))
        (answerResponse 201) createFailure
  | .node id =>
    if method = "DELETE" then s.act (.removeNode id) emptyResponse (editFailure (some 404) noBad)
    else s.withBody payload NodeUpdate.ofFields? fun body =>
      s.act (.updateNode id body.label body.summary (body.params.map Json.object) body.paramsText)
        (answerResponse 200) (editFailure (some 404) badParams)
  | .position id => s.withBody payload NewPosition.ofFields? fun body =>
      s.act (.setPosition id (.real body.x) (.real body.y)) emptyResponse
        (editFailure (some 404) noBad)
  | .edges => s.withBody payload NewEdge.ofFields? fun body =>
      s.act (.addEdge body.source body.target) (answerResponse 201) (editFailure (some 400) noBad)
  | .edge text =>
    match index? text with
    | some index => s.act (.removeEdge index) emptyResponse (editFailure (some 404) noBad)
    | none => (s, .unprocessable)
  | .composites => s.withBody payload NewGroup.ofFields? fun body =>
      s.act (.group body.members body.label) (answerResponse 201) (editFailure (some 404) badGroup)
  | .build => s.act .build (answerResponse 200) (editFailure none noBad)
  | .script => s.act .build scriptResponse (editFailure none noBad)
  | .manual => (s, ⟨200, .text title, none⟩)
  | .description => (s, .ofJson 200 description)

/-- The full response to a method on a path. -/
def respondAt (s : Server) (method : Text) (path : String) (payload : Payload) : Server × Response :=
  match Route.ofPath? path with
  | some route =>
    if route.methods.contains method then s.answer method payload route
    else (s, .methodNotAllowed)
  | none =>
    if (Route.redirect? path).isSome then (s, ⟨307, .text "", none⟩) else (s, .notFound)

/-- The response to a request. The method `HEAD` asks for no body. -/
def respond (s : Server) (request : Request) : Server × Response :=
  let (next, response) := s.respondAt request.verb (targetPath request.target) request.payload
  let sent := response.sent s.encoder
  (next, if request.verb = "HEAD" then sent.withoutBody else sent)

end Server

end Http

end PipelineBoard
