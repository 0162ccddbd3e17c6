-- Requests that edit the graph. Such a request asks for one action on the board,
-- or for none if its body has another shape. Its response tells what came of the
-- action, if what the route answers can be encoded.
import PipelineBoard.Http.Server
import PipelineBoard.Proofs.Board.InPlace
import PipelineBoard.Proofs.Board.Runs

namespace PipelineBoard

namespace Http

/-! ## What a request asks for -/

/-- The fields of a body that writes an object. -/
def bodyFields? (payload : Payload) : Option Fields :=
  match readPayload payload with
  | .ok (.object fields) => some fields
  | _ => none

namespace Route

/-- With this method, the route is there to change the graph. -/
def edits (method : Text) : Route → Bool
  | .graph => method = "PUT"
  | .canvas | .project | .nodes | .node _ | .position _ | .edges | .edge _ | .composites => true
  | .health | .build | .script | .manual | .description => false

/-- The action that a request to the route asks for. A body of another shape
asks for none. -/
def action? (method : Text) (payload : Payload) : Route → Option Action
  | .graph => (bodyFields? payload).map fun fields => .load (.object fields) false
  | .canvas => ((bodyFields? payload).bind Canvas.ofFields?).map fun body =>
      .replaceCanvas (.list body.nodes) (.list body.edges)
  | .project => ((bodyFields? payload).bind (text? · "name")).map fun name =>
      .rename (Text.trim name)
  | .nodes => ((bodyFields? payload).bind NewNode.ofFields?).map fun body =>
      .createNode body.kind body.label (body.position.map Json.object)
  | .node id =>
    if method = "DELETE" then some (.removeNode id)
    else ((bodyFields? payload).bind NodeUpdate.ofFields?).map fun body =>
      .updateNode id body.label body.summary (body.params.map Json.object) body.paramsText
  | .position id => ((bodyFields? payload).bind NewPosition.ofFields?).map fun body =>
      .setPosition id (.real body.x) (.real body.y)
  | .edges => ((bodyFields? payload).bind NewEdge.ofFields?).map fun body =>
      .addEdge body.source body.target
  | .edge text => (index? text).map .removeEdge
  | .composites => ((bodyFields? payload).bind NewGroup.ofFields?).map fun body =>
      .group body.members body.label
  | .health | .build | .script | .manual | .description => none

end Route

namespace Request

/-- The route of a request, if it takes the method. -/
def route? (request : Request) : Option Route :=
  (Route.ofPath? (targetPath request.target)).filter fun route =>
    route.methods.contains request.verb

/-- The request is addressed to a route that is there to change the graph. -/
def Edits (request : Request) : Prop :=
  ∃ route, request.route? = some route ∧ route.edits request.verb = true

def action? (request : Request) : Option Action :=
  request.route?.bind (·.action? request.verb request.payload)

end Request

/-! ## Statuses -/

namespace Response

/-- The status of success. -/
def Succeeded (r : Response) : Prop := 200 ≤ r.status ∧ r.status < 300

instance (r : Response) : Decidable r.Succeeded := inferInstanceAs (Decidable (_ ∧ _))

@[simp] theorem status_ofJson (status : Nat) (value : Json) : (ofJson status value).status = status :=
  rfl

@[simp] theorem status_detail (status : Nat) (message : Text) :
    (detail status message).status = status := rfl

@[simp] theorem status_noContent : noContent.status = 204 := rfl

@[simp] theorem status_unprocessable : unprocessable.status = 422 := rfl

@[simp] theorem status_serverError : serverError.status = 500 := rfl

theorem sent_of_encodes {r : Response} {encoder : Encoder}
    (h : encoder.encodes r.content = true) : r.sent encoder = r := by
  rw [sent, if_pos h]

theorem sent_of_not_encodes {r : Response} {encoder : Encoder}
    (h : encoder.encodes r.content = false) : r.sent encoder = serverError := by
  rw [sent, h]
  rfl

theorem status_sent {r : Response} (h : r.status ∈ [400, 500]) (encoder : Encoder) :
    (r.sent encoder).status ∈ [400, 500] := by
  unfold sent
  split
  · exact h
  · decide

end Response

namespace Server

/-! ## What comes of an action -/

/-- The server after an action. -/
def acted (s : Server) (action : Action) : Server :=
  { s with board := (s.board.step s.ids action).board, ids := (s.board.step s.ids action).ids }

/-- The server and the response that answer what a request asks for: nothing,
an action that is done, or an action that fails. -/
inductive Handled (s : Server) : Option Action → Server × Response → Prop
  | refused {response : Response} (hstatus : response.status ∈ [400, 422]) :
      Handled s none (s, response)
  | done {action : Action} {answer : Answer} {response : Response}
      (hresult : (s.board.step s.ids action).result = .ok answer) (hstatus : response.Succeeded) :
      Handled s (some action) (s.acted action, response)
  | failed {action : Action} {error : ActionError} {response : Response}
      (hresult : (s.board.step s.ids action).result = .error error)
      (hstatus : response.status ∈ [400, 404, 500]) :
      Handled s (some action) (s.acted action, response)

/-- Whatever comes of it, the board is as it was or one step further. -/
theorem Handled.board {s : Server} {asked : Option Action} {outcome : Server × Response}
    (h : Handled s asked outcome) :
    outcome.1.board = s.board ∨ ∃ action, outcome.1.board = (s.board.step s.ids action).board := by
  cases h with
  | refused => exact Or.inl rfl
  | done => exact Or.inr ⟨_, rfl⟩
  | failed => exact Or.inr ⟨_, rfl⟩

theorem not_succeeded_of_refusal {response : Response} (h : response.status ∈ [400, 404, 422, 500]) :
    ¬ response.Succeeded := by
  simp only [List.mem_cons, List.not_mem_nil, or_false] at h
  unfold Response.Succeeded
  omega

/-- A response that tells no success has the status of a refusal, and the board
is as it was. -/
theorem Handled.refusal {s : Server} {asked : Option Action} {outcome : Server × Response}
    (h : Handled s asked outcome) (hfailed : ¬ outcome.2.Succeeded) :
    outcome.1.board = s.board ∧ outcome.2.status ∈ [400, 404, 422, 500] := by
  have hsub : [400, 422] ⊆ [400, 404, 422, 500] ∧ [400, 404, 500] ⊆ [400, 404, 422, 500] := by decide
  cases h with
  | refused hstatus => exact ⟨rfl, hsub.1 hstatus⟩
  | done _ hstatus => exact absurd hstatus hfailed
  | failed hresult hstatus => exact ⟨Board.board_of_step_error hresult, hsub.2 hstatus⟩

/-- A response that tells success comes of an action that was carried out. -/
theorem Handled.success {s : Server} {asked : Option Action} {outcome : Server × Response}
    (h : Handled s asked outcome) (hdone : outcome.2.Succeeded) :
    ∃ action answer, asked = some action ∧ (s.board.step s.ids action).result = .ok answer ∧
      outcome.1 = s.acted action := by
  cases h with
  | refused hstatus => exact absurd hdone (not_succeeded_of_refusal (by grind))
  | done hresult _ => exact ⟨_, _, rfl, hresult, rfl⟩
  | failed _ hstatus => exact absurd hdone (not_succeeded_of_refusal (by grind))

theorem Handled.succeeded_of_ok {s : Server} {action : Action} {answer : Answer}
    {outcome : Server × Response} (h : Handled s (some action) outcome)
    (hresult : (s.board.step s.ids action).result = .ok answer) : outcome.2.Succeeded := by
  cases h with
  | done _ hstatus => exact hstatus
  | failed herror _ =>
    rw [hresult] at herror
    cases herror

theorem board_act (s : Server) (action : Action) (answer : Board → Answer → Response)
    (failure : ActionError → Response) :
    (s.act action answer failure).1.board = (s.board.step s.ids action).board := by
  unfold act
  simp only
  split <;> rfl

theorem handled_act {s : Server} {action : Action} {answer : Board → Answer → Response}
    {failure : ActionError → Response} (hanswer : ∀ board value, (answer board value).Succeeded)
    (hfailure : ∀ error, (failure error).status ∈ [400, 404, 500]) :
    Handled s (some action) (s.act action answer failure) := by
  unfold act
  simp only
  rcases hresult : (s.board.step s.ids action).result with error | value
  · exact .failed hresult (hfailure error)
  · exact .done hresult (hanswer _ value)

theorem succeeded_answer {status : Nat} (h : 200 ≤ status ∧ status < 300) (board : Board)
    (value : Answer) : (answerResponse status board value).Succeeded := by
  cases value <;> simp [answerResponse, Response.Succeeded, h]

theorem succeeded_snapshot (board : Board) (value : Answer) :
    (snapshotResponse board value).Succeeded := by
  simp [snapshotResponse, Response.Succeeded]

theorem succeeded_empty (board : Board) (value : Answer) :
    (emptyResponse board value).Succeeded := by
  simp [emptyResponse, Response.Succeeded]

theorem status_snapshotFailure (error : ActionError) :
    (snapshotFailure error).status ∈ [400, 404, 500] := by
  cases error <;> simp [snapshotFailure]

theorem status_createFailure (error : ActionError) :
    (createFailure error).status ∈ [400, 404, 500] := by
  cases error with
  | edit e => cases e <;> simp [createFailure]
  | schema e => simp [createFailure]
  | write e => simp [createFailure]

/-- The status of a failure is one that the route has for its cause, or tells of
a cause that the route has no answer for. -/
theorem status_editFailure {absent : Option Nat} {bad : EditError → Option Nat}
    (habsent : ∀ status ∈ absent, status ∈ [400, 404])
    (hbad : ∀ e, ∀ status ∈ bad e, status = 400) (error : ActionError) :
    (editFailure absent bad error).status ∈ [400, 404, 500] := by
  have hfound : ∀ {status : Nat} (message : Text), status ∈ [400, 404] →
      (Response.detail status message).status ∈ [400, 404, 500] := by
    intro status message h
    simp only [Response.status_detail, List.mem_cons, List.not_mem_nil, or_false] at h ⊢
    omega
  cases error with
  | schema e => simp [editFailure]
  | write e => simp [editFailure]
  | edit e =>
    unfold editFailure
    simp only
    split
    · exact hfound _ (habsent _ rfl)
    · exact hfound _ (habsent _ rfl)
    · rcases hb : bad e with _ | status
      · simp
      · simp [hbad e status hb]

theorem bad_badParams (e : EditError) : ∀ status ∈ badParams e, status = 400 := by
  cases e <;> simp [badParams]

theorem bad_badGroup (e : EditError) : ∀ status ∈ badGroup e, status = 400 := by
  cases e <;> simp [badGroup]

/-! ## Routes that edit -/

theorem handled_withFields {s : Server} {payload : Payload} {go : Fields → Server × Response}
    {asks : Fields → Option Action} (h : ∀ fields, Handled s (asks fields) (go fields)) :
    Handled s ((bodyFields? payload).bind asks) (s.withFields payload go) := by
  unfold bodyFields? withFields
  rcases readPayload payload with error | value
  · cases error <;> exact .refused (by simp)
  · cases value with
    | object fields => exact h fields
    | _ => exact .refused (by simp)

theorem handled_withBody {α : Type} {s : Server} {payload : Payload} {shape : Fields → Option α}
    {go : α → Server × Response} {ask : α → Action}
    (h : ∀ body, Handled s (some (ask body)) (go body)) :
    Handled s (((bodyFields? payload).bind shape).map ask) (s.withBody payload shape go) := by
  rw [Option.map_bind]
  refine handled_withFields fun fields => ?_
  rw [Function.comp_apply]
  rcases hshape : shape fields with _ | body
  · exact .refused (by simp)
  · exact h body

/-- Every route that edits hands its body to one action. -/
theorem handled_answer (s : Server) {method : Text} (payload : Payload) {route : Route}
    (h : route.edits method = true) :
    Handled s (route.action? method payload) (s.answer method payload route) := by
  cases route with
  | graph =>
    have hmethod : method ≠ "GET" := by
      rintro rfl
      cases h
    unfold Route.action? answer
    simp only
    rw [if_neg hmethod, Option.map_eq_bind]
    exact handled_withFields fun fields => handled_act succeeded_snapshot status_snapshotFailure
  | canvas => exact handled_withBody fun _ => handled_act succeeded_snapshot status_snapshotFailure
  | project =>
    exact handled_withBody fun _ => handled_act (succeeded_answer (by decide))
      (status_editFailure (by simp) (by simp [noBad]))
  | nodes =>
    exact handled_withBody fun _ => handled_act (succeeded_answer (by decide)) status_createFailure
  | node id =>
    have hfailure : ∀ error, (editFailure (some 404) badParams error).status ∈ [400, 404, 500] :=
      status_editFailure (by simp) bad_badParams
    unfold Route.action? answer
    simp only
    split
    · exact handled_act succeeded_empty (status_editFailure (by simp) (by simp [noBad]))
    · exact handled_withBody fun _ => handled_act (succeeded_answer (by decide)) hfailure
  | position id =>
    exact handled_withBody fun _ => handled_act succeeded_empty
      (status_editFailure (by simp) (by simp [noBad]))
  | edges =>
    exact handled_withBody fun _ => handled_act (succeeded_answer (by decide))
      (status_editFailure (by simp) (by simp [noBad]))
  | edge text =>
    unfold Route.action? answer
    simp only
    rcases index? text with _ | index
    · exact .refused (by simp)
    · exact handled_act succeeded_empty (status_editFailure (by simp) (by simp [noBad]))
  | composites =>
    exact handled_withBody fun _ => handled_act (succeeded_answer (by decide))
      (status_editFailure (by simp) bad_badGroup)
  | health => cases h
  | build => cases h
  | script => cases h
  | manual => cases h
  | description => cases h

/-- Every other route leaves the board alone or builds its graph. -/
theorem board_answer (s : Server) {method : Text} (payload : Payload) {route : Route}
    (hmethod : route.methods.contains method = true) (h : route.edits method = false) :
    (s.answer method payload route).1.board = s.board ∨
      (s.answer method payload route).1.board = (s.board.step s.ids .build).board := by
  cases route with
  | graph =>
    have hput : method ≠ "PUT" := of_decide_eq_false h
    have hget : method = "GET" := by simpa [Route.methods, hput] using hmethod
    unfold answer
    rw [if_pos hget]
    exact Or.inl rfl
  | build => exact Or.inr (board_act s .build _ _)
  | script => exact Or.inr (board_act s .build _ _)
  | health => exact Or.inl rfl
  | manual => exact Or.inl rfl
  | description => exact Or.inl rfl
  | _ => cases h

/-! ## Requests -/

theorem route?_eq_some_iff {request : Request} {route : Route} :
    request.route? = some route ↔ Route.ofPath? (targetPath request.target) = some route ∧
      route.methods.contains request.verb = true := by
  rw [Request.route?, Option.filter_eq_some_iff]

/-- What a request without a route gets has no part in the board. -/
theorem board_respond_of_route_none {s : Server} {request : Request} (h : request.route? = none) :
    (s.respond request).1.board = s.board := by
  unfold respond respondAt
  unfold Request.route? at h
  rcases hpath : Route.ofPath? (targetPath request.target) with _ | route
  · simp only
    split <;> rfl
  · rw [hpath, Option.filter_eq_none_iff] at h
    simp only
    rw [if_neg (h route rfl)]

/-- The response of the route to a request, before it is sent. -/
def told (s : Server) (request : Request) : Response :=
  (s.respondAt request.verb (targetPath request.target) request.payload).2

theorem status_respond (s : Server) (request : Request) :
    (s.respond request).2.status = ((s.told request).sent s.encoder).status := by
  unfold respond told
  rcases s.respondAt request.verb (targetPath request.target) request.payload with ⟨next, response⟩
  simp only
  split <;> rfl

theorem respond_of_route {s : Server} {request : Request} {route : Route}
    (h : request.route? = some route) :
    route.methods.contains request.verb = true ∧
      (s.respond request).1 = (s.answer request.verb request.payload route).1 ∧
      s.told request = (s.answer request.verb request.payload route).2 := by
  obtain ⟨hpath, hmethod⟩ := route?_eq_some_iff.mp h
  have hrespond : s.respondAt request.verb (targetPath request.target) request.payload =
      s.answer request.verb request.payload route := by
    unfold respondAt
    rw [hpath]
    simp only
    rw [if_pos hmethod]
  refine ⟨hmethod, ?_, ?_⟩
  · unfold respond
    rw [hrespond]
  · unfold told
    rw [hrespond]

/-- The server after requests, one after the other. -/
def after (s : Server) (requests : List Request) : Server :=
  requests.foldl (fun s request => (s.respond request).1) s

theorem after_cons (s : Server) (request : Request) (rest : List Request) :
    s.after (request :: rest) = (s.respond request).1.after rest := by
  unfold after
  rw [List.foldl_cons]

/-- A request takes the board no further than one action does. -/
theorem reachable_respond {name : Text} {s : Server} (h : Board.Reachable name s.board)
    (request : Request) : Board.Reachable name (s.respond request).1.board := by
  rcases hroute : request.route? with _ | route
  · rw [board_respond_of_route_none hroute]
    exact h
  · obtain ⟨hmethod, hserver, _⟩ := respond_of_route (s := s) hroute
    rw [hserver]
    rcases hedits : route.edits request.verb
    · rcases board_answer s request.payload hmethod hedits with hboard | hboard
      · exact hboard ▸ h
      · exact hboard ▸ .step h s.ids .build
    · rcases (handled_answer s request.payload hedits).board with hboard | ⟨action, hboard⟩
      · exact hboard ▸ h
      · exact hboard ▸ .step h s.ids action

/-- Whatever the requests, the board is one that a run of actions reaches. -/
theorem reachable_after {name : Text} {s : Server} (h : Board.Reachable name s.board)
    (requests : List Request) : Board.Reachable name (s.after requests).board := by
  induction requests generalizing s with
  | nil => exact h
  | cons request rest ih =>
    rw [after_cons]
    exact ih (reachable_respond h request)

/-- What comes of a request that edits, before its response is sent. -/
theorem handled_respond (s : Server) {request : Request} (h : request.Edits) :
    Handled s request.action? ((s.respond request).1, s.told request) := by
  obtain ⟨route, hroute, hedits⟩ := h
  obtain ⟨_, hserver, htold⟩ := respond_of_route (s := s) hroute
  rw [hserver, htold, Request.action?, hroute, Option.bind_some]
  exact handled_answer s request.payload hedits

/-- A request that edits succeeds just if its body asks for an action that the
board carries out and the answer of the route can be told. Then the server is the
one that this action makes. Otherwise the status tells of a refusal, and the board
is the one before the request; but an action that was carried out stays done though
its answer cannot be told. After any requests the board is one that a run of
actions reaches. -/
theorem an_edit_succeeds_if_it_is_done_and_can_be_told (s : Server) (request : Request)
    (h : request.Edits) :
    ((s.respond request).2.Succeeded ↔
        s.encoder.encodes (s.told request).content = true ∧
          ∃ action answer, request.action? = some action ∧
            (s.board.step s.ids action).result = .ok answer) ∧
      ((s.respond request).2.Succeeded → ∃ action, request.action? = some action ∧
        (s.respond request).1.board = (s.board.step s.ids action).board ∧
        (s.respond request).1.ids = (s.board.step s.ids action).ids) ∧
      (¬ (s.respond request).2.Succeeded →
        (s.respond request).2.status ∈ [400, 404, 422, 500] ∧
          ((s.respond request).1.board = s.board ∨
            s.encoder.encodes (s.told request).content = false ∧
              (s.respond request).2.status = 500 ∧
              ∃ action answer, request.action? = some action ∧
                (s.board.step s.ids action).result = .ok answer ∧
                (s.respond request).1.board = (s.board.step s.ids action).board)) ∧
      ∀ name, Board.Reachable name s.board → ∀ requests,
        Board.Reachable name (s.after requests).board := by
  have hhandled := s.handled_respond h
  have hstatus := s.status_respond request
  generalize s.told request = told at hhandled hstatus ⊢
  generalize s.respond request = outcome at hhandled hstatus ⊢
  rcases hplain : s.encoder.encodes told.content
  · -- The answer cannot be told, whatever came of the action.
    rw [Response.sent_of_not_encodes hplain, Response.status_serverError] at hstatus
    have hfailed : ¬ outcome.2.Succeeded := by simp [Response.Succeeded, hstatus]
    refine ⟨⟨fun hdone => absurd hdone hfailed, fun hdone => by cases hdone.1⟩,
      fun hdone => absurd hdone hfailed, fun _ => ⟨by simp [hstatus], ?_⟩,
      fun name hreachable => reachable_after hreachable⟩
    by_cases hdone : told.Succeeded
    · obtain ⟨action, answer, hasked, hresult, hacted⟩ := hhandled.success hdone
      exact .inr ⟨rfl, hstatus, action, answer, hasked, hresult, congrArg Server.board hacted⟩
    · exact .inl (hhandled.refusal hdone).1
  · rw [Response.sent_of_encodes hplain] at hstatus
    have hsucceeded : outcome.2.Succeeded ↔ told.Succeeded := by
      unfold Response.Succeeded
      rw [hstatus]
    rw [hsucceeded, hstatus]
    refine ⟨⟨fun hdone => ⟨rfl, ?_⟩, ?_⟩, fun hdone => ?_, fun hfailed => ?_,
      fun name hreachable => reachable_after hreachable⟩
    · obtain ⟨action, answer, hasked, hresult, _⟩ := hhandled.success hdone
      exact ⟨action, answer, hasked, hresult⟩
    · rintro ⟨_, action, answer, hasked, hresult⟩
      rw [hasked] at hhandled
      exact hhandled.succeeded_of_ok hresult
    · obtain ⟨action, _, hasked, _, hacted⟩ := hhandled.success hdone
      have hacted : outcome.1 = s.acted action := hacted
      rw [hacted]
      exact ⟨action, hasked, rfl, rfl⟩
    · obtain ⟨hboard, hmem⟩ := hhandled.refusal hfailed
      exact ⟨hmem, .inl hboard⟩

/-- A server whose one node stands at coordinates that are no numbers, as a
snapshot may have them. -/
def misplaced : Server where
  board := { graph := ⟨"p", [{ id := "a", kind := "Data", position := [("x", .null), ("y", .string "s")] }],
    [], by simp⟩ }
  ids := .serial

/-- A node that cannot be grouped makes the server fail after an id was drawn. -/
theorem the_requests_to_a_misplaced_node :
    let group : Request := ⟨"POST", "/api/graph/composites",
      .value (.object [("members", .list [.string "a"])])⟩
    let rename : Request := ⟨"PUT", "/api/graph/project", .value (.object [("name", .string " mnist ")])⟩
    group.Edits ∧ rename.Edits ∧
      ¬ (misplaced.respond group).2.Succeeded ∧
      (misplaced.respond group).1.board = misplaced.board ∧
      (misplaced.respond rename).2.Succeeded ∧
      (misplaced.respond rename).1.board.graph.name = "mnist" := by
  intro group rename
  have hgroupPath : Route.ofPath? (targetPath "/api/graph/composites") = some .composites := by rfl
  have hrenamePath : Route.ofPath? (targetPath "/api/graph/project") = some .project := by rfl
  have hgroupRoute : group.route? = some .composites :=
    route?_eq_some_iff.mpr ⟨hgroupPath, by decide +kernel⟩
  have hrenameRoute : rename.route? = some .project :=
    route?_eq_some_iff.mpr ⟨hrenamePath, by decide +kernel⟩
  have hgroup : group.Edits := ⟨_, hgroupRoute, rfl⟩
  have hrename : rename.Edits := ⟨_, hrenameRoute, rfl⟩
  have hgroupAction : group.action? = some (.group ["a"] "Composite") := by
    rw [Request.action?, hgroupRoute]
    rfl
  have hrenameAction : rename.action? = some (.rename "mnist") := by
    rw [Request.action?, hrenameRoute]
    rfl
  obtain ⟨hgroupDone, _, hgroupFailed, _⟩ :=
    an_edit_succeeds_if_it_is_done_and_can_be_told misplaced group hgroup
  obtain ⟨hrenameDone, hrenameBoard, _⟩ :=
    an_edit_succeeds_if_it_is_done_and_can_be_told misplaced rename hrename
  have hplain : misplaced.encoder.encodes (misplaced.told group).content = true := by decide +kernel
  have hfailed : ¬ (misplaced.respond group).2.Succeeded := by
    rw [hgroupDone]
    rintro ⟨_, action, answer, hasked, hresult⟩
    rw [hgroupAction] at hasked
    cases hasked
    cases hresult
  have hdone : (misplaced.respond rename).2.Succeeded :=
    hrenameDone.mpr ⟨by decide +kernel, _, .name "mnist", hrenameAction, rfl⟩
  obtain ⟨action, hasked, hboard, _⟩ := hrenameBoard hdone
  rw [hrenameAction] at hasked
  cases hasked
  refine ⟨hgroup, hrename, hfailed, ?_, hdone, ?_⟩
  · rcases (hgroupFailed hfailed).2 with hboard | ⟨hnot, _⟩
    · exact hboard
    · cases hnot.symm.trans hplain
  · rw [hboard]
    rfl

/-- An empty server, and the import of a node whose label is half of a surrogate
pair. -/
def blank : Server := { board := .new "p", ids := .serial }

def halfLabel : Request := ⟨"PUT", "/api/graph", .text
  "\x7b\"nodes\":[\x7b\"id\":\"m\",\"type\":\"Data\",\"label\":\"\\ud800\"\x7d],\"edges\":[]\x7d"⟩

/-- The import is answered as a failure of the server, and the node is there. -/
theorem a_failed_import_is_kept :
    Board.Reachable "p" blank.board ∧ halfLabel.Edits ∧ blank.board.graph.ids = [] ∧
      (blank.respond halfLabel).2.status = 500 ∧
      (blank.respond halfLabel).1.board.graph.ids = ["m"] := by
  have hpath : Route.ofPath? (targetPath "/api/graph") = some .graph := by rfl
  have hroute : halfLabel.route? = some .graph := route?_eq_some_iff.mpr ⟨hpath, by decide +kernel⟩
  exact ⟨.new, ⟨_, hroute, rfl⟩, rfl, by decide +kernel, by decide +kernel⟩

/-- A group at a place of too many digits is told by one encoder and not by the
other, and is there in both cases. -/
example :
    let place : Fields := [("x", .int (Nat.pow 10 Numeral.mostDigits)), ("y", .int 0)]
    let g : Graph := ⟨"p", [{ id := "a", kind := "Data", position := place }], [], by simp⟩
    let server (encoder : Encoder) : Server := ⟨{ graph := g }, .serial, encoder⟩
    let group : Request := ⟨"POST", "/api/graph/composites",
      .value (.object [("members", .list [.string "a"])])⟩
    ((server .limited).respond group).2.status = 500 ∧
      ((server .unlimited).respond group).2.status = 201 ∧
      ((server .limited).respond group).1.board.graph.ids = ["a", "comp_0000001"] ∧
      ((server .unlimited).respond group).1.board.graph.ids = ["a", "comp_0000001"] := by
  decide +kernel

end Server

end Http

end PipelineBoard
