-- Requests and responses of the server.
import PipelineBoard.Json.Printer
import PipelineBoard.Text.Uppercase

namespace PipelineBoard

namespace Http

/-! ## Requests -/

/-- The body of a request: none, a value, or text that should write one. -/
inductive Payload where
  | none
  | value (value : Json)
  | text (text : String)

/-- A request. The target is as it was sent: a path, percent-encoded, perhaps
with a server in front and a query behind. -/
structure Request where
  method : String
  target : String
  payload : Payload := .none

/-- The method in capitals: a request may write it in any case. -/
def Request.verb (r : Request) : Text := Text.uppercase r.method

/-! ## Responses -/

/-- What a response carries. -/
inductive Content where
  | none
  | json (value : Json)
  | text (text : Text)

/-- What writes the values of answers. One encoder has the limit on the digits of an
integer, and the other writes integers of any length. -/
inductive Encoder where
  | limited
  | unlimited

/-- The encoder has a form in UTF-8 for the content. -/
def Encoder.encodes (encoder : Encoder) : Content → Bool
  | .none => true
  | .text t => t.isEncodable
  | .json v =>
    v.isEncodable &&
      match encoder with
      | .limited => v.isShort
      | .unlimited => true

/-- A response. The disposition names the file that a text is saved to. -/
structure Response where
  status : Nat
  content : Content := .none
  disposition : Option String := none

mutual

/-- A value as responses carry it: JSON has no infinite or undefined number,
and null stands in its place. -/
def carried : Json → Json
  | .real d => if d.isFinite then .real d else .null
  | .list items => .list (carriedItems items)
  | .object fields => .object (carriedFields fields)
  | value => value

def carriedItems : List Json → List Json
  | [] => []
  | item :: rest => carried item :: carriedItems rest

def carriedFields : List (Text × Json) → List (Text × Json)
  | [] => []
  | (key, value) :: rest => (key, carried value) :: carriedFields rest

end

namespace Response

/-- A response that carries a value. -/
def ofJson (status : Nat) (value : Json) : Response := ⟨status, .json (carried value), none⟩

/-- A response that tells what went wrong. -/
def detail (status : Nat) (message : Text) : Response :=
  ofJson status (.object [("detail", .string message)])

/-- The response to a request that asks for no body. -/
def withoutBody (r : Response) : Response := { r with content := .text "" }

def noContent : Response := ⟨204, .none, none⟩

def notFound : Response := detail 404 "Not Found"

def methodNotAllowed : Response := detail 405 "Method Not Allowed"

/-- A body that the route cannot use. What is told about it is left out. -/
def unprocessable : Response := ⟨422, .none, none⟩

/-- A failure that the route has no answer for. -/
def serverError : Response := ⟨500, .text "Internal Server Error", none⟩

/-- The response as it is sent: the encoding of its content comes after all that
the route does, and may fail. -/
def sent (r : Response) (encoder : Encoder) : Response :=
  if encoder.encodes r.content then r else serverError

end Response

end Http

end PipelineBoard
