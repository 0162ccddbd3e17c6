-- The addresses of nodes. A node is addressed by its id, each byte of which stands
-- behind a percent sign; an empty id and one with a slash address no node.
import PipelineBoard.Proofs.Board.Updates
import PipelineBoard.Proofs.Graph.ValidEdits
import PipelineBoard.Proofs.Http.Edits
import PipelineBoard.Proofs.Storage.Paths
import PipelineBoard.Proofs.Text.Encodable
import PipelineBoard.Proofs.Text.Utf8

namespace PipelineBoard

namespace Http

open PipelineBoard.Path (cutAt)

/-! ## Paths without dots -/

theorem foldl_pushSegment {segments : List (List Char)} (h : ∀ segment ∈ segments, '.' ∉ segment)
    (before : List (List Char)) :
    segments.foldl pushSegment before = segments.reverse ++ before := by
  induction segments generalizing before with
  | nil => rfl
  | cons segment rest ih =>
    obtain ⟨hdot, hrest⟩ := List.forall_mem_cons.mp h
    have hpush : pushSegment before segment = segment :: before := by
      unfold pushSegment
      rw [if_neg (by rintro rfl; simp at hdot), if_neg (by rintro rfl; simp at hdot)]
    rw [List.foldl_cons, hpush, ih hrest, List.reverse_cons, List.append_assoc]
    rfl

theorem dropDots_eq_self {path : List Char} (h : '.' ∉ path) : dropDots path = path := by
  have hsegments : ∀ segment ∈ cutAt '/' path, '.' ∉ segment := fun segment hsegment hdot =>
    h ((Path.exists_mem_cutAt (by decide)).mp ⟨segment, hsegment, hdot⟩)
  rw [dropDots, foldl_pushSegment hsegments, List.append_nil, List.reverse_reverse,
    Path.intercalate_cutAt]

/-- A target that is a path, with neither dots nor a query, names that path. -/
theorem serverPath_ofChars {c : Char} {rest : List Char} (hslash : c ≠ '/')
    (hquery : ∀ d ∈ '/' :: c :: rest, (d != '?' && d != '#') = true)
    (hdots : '.' ∉ '/' :: c :: rest) :
    (Target.ofChars ('/' :: c :: rest)).serverPath = '/' :: c :: rest := by
  have hcut : Target.dropQuery ('/' :: c :: rest) = '/' :: c :: rest :=
    List.takeWhile_eq_self_iff.mpr hquery
  have hscheme : Target.cutScheme ('/' :: c :: rest) = ([], '/' :: c :: rest) := rfl
  have htarget : Target.ofChars ('/' :: c :: rest) = ⟨[], .none, '/' :: c :: rest⟩ := by
    unfold Target.ofChars
    rw [hcut, hscheme]
    split
    · rename_i h
      cases h
      exact absurd rfl hslash
    · rename_i h
      cases h
      rfl
  have hdrop : ('/' :: c :: rest).dropWhile (· == '/') = c :: rest := by simp [hslash]
  rw [htarget]
  change dropDots ('/' :: ('/' :: c :: rest).dropWhile (· == '/')) = _
  rw [hdrop, dropDots_eq_self hdots]

/-! ## Targets of nodes -/

/-- The target of a node: its id is encoded in full. -/
def nodeTarget (id : String) : String := "/api/graph/nodes/" ++ Text.percentAll id

/-- The id can be one segment of a path. -/
def Addressable (id : String) : Prop := id ≠ "" ∧ '/' ∉ id.toList

instance (id : String) : Decidable (Addressable id) := inferInstanceAs (Decidable (_ ∧ _))

theorem cutAt_nodes (cs : List Char) :
    cutAt '/' ("/api/graph/nodes/".toList ++ cs) =
      [[], "api".toList, "graph".toList, "nodes".toList] ++ cutAt '/' cs :=
  Path.cutAt_append '/' "/api/graph/nodes".toList cs

theorem toList_nodeTarget (id : String) :
    (nodeTarget id).toList = "/api/graph/nodes/".toList ++ (Text.percentAll id).toList :=
  String.toList_append

/-- Encoded in full, an id has no character that a target gives a meaning to. -/
theorem targetPath_nodeTarget (id : String) :
    targetPath (nodeTarget id) = "/api/graph/nodes/" ++ id := by
  have hencoded : ∀ c ∈ (Text.percentAll id).toList, (c != '?' && c != '#' && c != '.') = true :=
    Text.of_mem_percentAll (by decide) (by decide) id
  have hfront : ∀ c ∈ "/api/graph/nodes/".toList, (c != '?' && c != '#' && c != '.') = true :=
    List.all_eq_true.mp (by decide)
  have hsafe : ∀ c ∈ (nodeTarget id).toList, (c != '?' && c != '#' && c != '.') = true := by
    rw [toList_nodeTarget]
    exact List.forall_mem_append.mpr ⟨hfront, hencoded⟩
  have htarget : (nodeTarget id).toList =
      '/' :: 'a' :: ("pi/graph/nodes/".toList ++ (Text.percentAll id).toList) :=
    toList_nodeTarget id
  have hquery : ∀ c ∈ (nodeTarget id).toList, (c != '?' && c != '#') = true :=
    fun c hc => ((Bool.and_eq_true _ _).mp (hsafe c hc)).1
  have hdots : '.' ∉ (nodeTarget id).toList := fun h => by simpa using hsafe '.' h
  rw [htarget] at hquery hdots
  rw [targetPath, htarget, serverPath_ofChars (by decide) hquery hdots, ← htarget,
    String.ofList_toList]
  exact Text.percentDecode_append_percentAll (by decide) id

/-! ## Routes of nodes -/

namespace Route

theorem segments_nodes (id : String) :
    segments ("/api/graph/nodes/" ++ id).toList =
      ["", "api", "graph", "nodes"] ++ segments id.toList := by
  unfold segments
  rw [String.toList_append, cutAt_nodes, List.map_append]
  rfl

theorem ofOpen?_node {id : String} (h : Addressable id) :
    ofOpen? (segments ("/api/graph/nodes/" ++ id).toList) = some (.node id) := by
  have hempty : id.isEmpty = false := by
    rw [Bool.eq_false_iff]
    exact fun hempty => h.1 (String.isEmpty_iff.mp hempty)
  rw [segments_nodes, segments, Path.cutAt_of_not_mem h.2]
  simp [ofOpen?, hempty]

theorem ofOpen?_of_not_addressable {id : String} (h : ¬Addressable id) :
    ofOpen? (segments ("/api/graph/nodes/" ++ id).toList) = none := by
  rw [segments_nodes]
  by_cases hslash : '/' ∈ id.toList
  · obtain ⟨front, rest, hid⟩ := List.append_of_mem hslash
    obtain ⟨first, pieces, hfirst⟩ := List.exists_cons_of_ne_nil (Path.cutAt_ne_nil '/' front)
    obtain ⟨second, others, hsecond⟩ := List.exists_cons_of_ne_nil (Path.cutAt_ne_nil '/' rest)
    rw [hid, segments, Path.cutAt_append, hfirst, hsecond]
    rcases pieces with _ | ⟨piece, pieces⟩ <;> rfl
  · have hempty : id = "" := by
      by_contra hsome
      exact h ⟨hsome, hslash⟩
    rw [hempty]
    rfl

/-- No route whose last segment is fixed takes the methods of a node. -/
theorem methods_of_ofFixed? {pieces : List String} {route : Route} (h : ofFixed? pieces = some route) :
    ("DELETE" : Text) ∉ route.methods ∧ ("PATCH" : Text) ∉ route.methods := by
  unfold ofFixed? at h
  split at h
  all_goals simp only [Option.ite_none_left_eq_some, Option.some.injEq, reduceCtorEq] at h
  all_goals grind [methods, Text.ofString_inj]

end Route

namespace Server

/-! ## Requests to nodes -/

/-- The server with another graph on its board. -/
def withGraph (s : Server) (graph : Graph) : Server := { s with board := { s.board with graph } }

/-- What comes of a request once its response is sent. -/
def sent (s : Server) (outcome : Server × Response) : Server × Response :=
  (outcome.1, outcome.2.sent s.encoder)

theorem respond_eq_sent {s : Server} {request : Request} {route : Route}
    (h : request.route? = some route) (hhead : request.verb ≠ "HEAD") :
    s.respond request = s.sent (s.answer request.verb request.payload route) := by
  obtain ⟨hpath, hmethod⟩ := route?_eq_some_iff.mp h
  unfold respond respondAt
  rw [hpath]
  simp only [if_pos hmethod, if_neg hhead]
  rfl

theorem withBody_of_some {α : Type} {s : Server} {payload : Payload} {shape : Fields → Option α}
    {body : α} (h : (bodyFields? payload).bind shape = some body) (go : α → Server × Response) :
    s.withBody payload shape go = go body := by
  obtain ⟨fields, hfields, hshape⟩ := Option.bind_eq_some_iff.mp h
  unfold bodyFields? at hfields
  unfold withBody withFields
  split at hfields
  · rename_i hpayload
    cases hfields
    simp only [hpayload, hshape]
  · cases hfields

theorem ne_head_of_method {verb : Text} (h : verb = "DELETE" ∨ verb = "PATCH") : verb ≠ "HEAD" := by
  rcases h with rfl | rfl <;> decide

section

variable {s : Server} {id : String} {request : Request} (htarget : request.target = nodeTarget id)
include htarget

theorem route?_of_addressable (h : Addressable id)
    (hmethod : request.verb = "DELETE" ∨ request.verb = "PATCH") :
    request.route? = some (.node id) := by
  refine route?_eq_some_iff.mpr ⟨?_, ?_⟩
  · rw [htarget, targetPath_nodeTarget, Route.ofPath?, Route.ofOpen?_node h]
  · rcases hmethod with hmethod | hmethod <;> simp [hmethod, Route.methods]

/-- What is asked of an id that addresses no node is turned down. -/
theorem respond_of_not_addressable (h : ¬Addressable id)
    (hmethod : request.verb = "DELETE" ∨ request.verb = "PATCH") :
    (s.respond request).1 = s ∧ (s.respond request).2.status ∈ [307, 404, 405] := by
  have hfixed : ∀ r : Response, (∀ encoder : Encoder, encoder.encodes r.content = true) →
      r.status ∈ [307, 404, 405] → (r.sent s.encoder).status ∈ [307, 404, 405] := by
    intro r hencodes hstatus
    rwa [Response.sent_of_encodes (hencodes _)]
  unfold respond
  rw [htarget, targetPath_nodeTarget]
  simp only [if_neg (ne_head_of_method hmethod)]
  unfold respondAt Route.ofPath?
  rw [Route.ofOpen?_of_not_addressable h]
  simp only
  split
  · rename_i route hroute
    obtain ⟨hdelete, hpatch⟩ := Route.methods_of_ofFixed? hroute
    have hmissing : ¬route.methods.contains request.verb = true := by
      rw [List.contains_iff_mem]
      rcases hmethod with hmethod | hmethod <;> rw [hmethod] <;> assumption
    rw [if_neg hmissing]
    exact ⟨rfl, hfixed .methodNotAllowed (by rintro (_ | _) <;> rfl) (by decide)⟩
  · split
    · exact ⟨rfl, hfixed ⟨307, .text "", none⟩ (by rintro (_ | _) <;> rfl) (by decide)⟩
    · exact ⟨rfl, hfixed .notFound (by rintro (_ | _) <;> rfl) (by decide)⟩

theorem respond_delete (h : Addressable id) (hid : (id : Text) ∈ s.board.graph.ids)
    (hmethod : request.verb = "DELETE") :
    s.respond request = (s.withGraph (s.board.graph.without id), .noContent) := by
  obtain ⟨node, _, hremove⟩ := Graph.removeNode_eq hid
  have hroute := route?_of_addressable htarget h (.inl hmethod)
  rw [respond_eq_sent hroute (ne_head_of_method (.inl hmethod)), hmethod]
  unfold answer
  simp only [if_true]
  unfold act Board.step
  simp only [hremove]
  rfl

theorem respond_patch (h : Addressable id) (hmethod : request.verb = "PATCH") {update : NodeUpdate}
    (hbody : (bodyFields? request.payload).bind NodeUpdate.ofFields? = some update) :
    s.respond request =
      s.sent (s.act (.updateNode id update.label update.summary (update.params.map Json.object)
        update.paramsText) (answerResponse 200) (editFailure (some 404) badParams)) := by
  have hroute := route?_of_addressable htarget h (.inr hmethod)
  rw [respond_eq_sent hroute (ne_head_of_method (.inr hmethod)), hmethod]
  unfold answer
  simp only [if_neg (show ¬("PATCH" : Text) = "DELETE" by decide)]
  rw [withBody_of_some hbody]

end

section

variable {s : Server} {node : Node} (hnode : node ∈ s.board.graph.nodes) {update : NodeUpdate}
include hnode

theorem act_update_of_newParams {new : Fields}
    (h : NewParams node.params update.params update.paramsText new) :
    s.act (.updateNode node.id update.label update.summary (update.params.map Json.object)
        update.paramsText) (answerResponse 200) (editFailure (some 404) badParams) =
      (s.withGraph (s.board.graph.replace (node.updated update.label update.summary new)),
        .ofJson 200 (node.updated update.label update.summary new).toJson) := by
  have hupdate := Board.updateNode_of_newParams hnode update.label update.summary h
  unfold act Board.step
  simp only [hupdate]
  rfl

theorem act_update_of_no_newParams
    (h : ∀ new, ¬NewParams node.params update.params update.paramsText new) :
    ∃ response : Response, response.status ∈ [400, 500] ∧
      s.act (.updateNode node.id update.label update.summary (update.params.map Json.object)
        update.paramsText) (answerResponse 200) (editFailure (some 404) badParams) =
      (s, response) := by
  obtain ⟨e, hparams, hupdate⟩ :=
    Board.updateNode_of_no_newParams hnode update.label update.summary h
  refine ⟨editFailure (some 404) badParams (.edit e), ?_, ?_⟩
  · cases hparams <;> simp [editFailure, badParams]
  · unfold act Board.step
    simp only [hupdate]
    rfl

end

/-- A node is deleted and edited at its address, its id encoded in full, if the id is
not empty and has no slash. Deleting takes out the node and its edges. An edit puts
what its body gives in place of the node's own, unless the params in the body are at
fault. At an id that is empty or has a slash, nothing is found and nothing changes,
although the node is there. An id that no UTF-8 writes is the id of no request. -/
theorem a_node_is_addressed_unless_its_id_is_empty_or_has_a_slash (s : Server) {node : Node}
    (hnode : node ∈ s.board.graph.nodes) :
    (∀ (id : String) (request : Request), node.id = id → request.target = nodeTarget id →
      (Addressable id →
        (request.verb = "DELETE" →
          s.respond request = (s.withGraph (s.board.graph.without node.id), .noContent)) ∧
        (request.verb = "PATCH" → ∀ update : NodeUpdate,
          (bodyFields? request.payload).bind NodeUpdate.ofFields? = some update →
            (∀ new, NewParams node.params update.params update.paramsText new →
              s.respond request =
                (s.withGraph (s.board.graph.replace (node.updated update.label update.summary new)),
                  (Response.ofJson 200
                    (node.updated update.label update.summary new).toJson).sent s.encoder)) ∧
            ((∀ new, ¬NewParams node.params update.params update.paramsText new) →
              ∃ response : Response, response.status ∈ [400, 500] ∧
                s.respond request = (s, response)))) ∧
      (¬Addressable id → (request.verb = "DELETE" ∨ request.verb = "PATCH") →
        (s.respond request).1 = s ∧ (s.respond request).2.status ∈ [307, 404, 405])) ∧
    (node.id.isEncodable = false → ∀ (id : String) (request : Request),
      request.route? = some (.node id) → node.id ≠ id) := by
  refine ⟨fun id request hid htarget => ⟨fun haddress => ?_,
    respond_of_not_addressable htarget⟩, ?_⟩
  · refine ⟨fun hdelete => ?_, fun hpatch update hbody => ?_⟩
    · rw [hid]
      exact respond_delete htarget haddress (hid ▸ List.mem_map_of_mem hnode) hdelete
    · rw [respond_patch htarget haddress hpatch hbody, ← hid]
      refine ⟨fun new hnew => ?_, fun hnone => ?_⟩
      · rw [act_update_of_newParams hnode hnew]
        rfl
      · obtain ⟨response, hstatus, hact⟩ := act_update_of_no_newParams hnode hnone
        rw [hact]
        exact ⟨response.sent s.encoder, Response.status_sent hstatus _, rfl⟩
  · rintro hplain id _ _ hid
    rw [hid, Text.isEncodable_ofString] at hplain
    cases hplain

/-- A server of two nodes, one with a slash in its id. -/
def crowded : Server where
  board := { graph := ⟨"p", [{ id := "é?%", kind := "Data" }, { id := "a/b", kind := "Model" }],
    [⟨"é?%", "a/b", .null⟩], by decide⟩ }
  ids := .serial

theorem the_addresses_of_two_nodes :
    let deletion : Request := ⟨"DELETE", nodeTarget "é?%", .none⟩
    let edit : Request := ⟨"PATCH", nodeTarget "é?%", .value (.object [("label", .string "L")])⟩
    let lost : Request := ⟨"DELETE", nodeTarget "a/b", .none⟩
    crowded.respond deletion = (crowded.withGraph (crowded.board.graph.without "é?%"), .noContent) ∧
      (crowded.respond edit).2 =
        .ofJson 200 (Node.toJson { id := "é?%", kind := "Data", label := "L" }) ∧
      (crowded.respond lost).1 = crowded := by
  intro deletion edit lost
  have hfirst : { id := "é?%", kind := "Data" } ∈ crowded.board.graph.nodes := List.mem_cons_self
  have hsecond : { id := "a/b", kind := "Model" } ∈ crowded.board.graph.nodes :=
    List.mem_cons_of_mem _ List.mem_cons_self
  have haddress : Addressable "é?%" := by decide
  have hdelete : deletion.verb = "DELETE" := by decide +kernel
  have hpatch : edit.verb = "PATCH" := by decide +kernel
  have hlost : lost.verb = "DELETE" := by decide +kernel
  refine ⟨?_, ?_, ?_⟩
  · exact (((a_node_is_addressed_unless_its_id_is_empty_or_has_a_slash crowded hfirst).1 _ _
      rfl rfl).1 haddress).1 hdelete
  · have htarget : edit.target = nodeTarget "é?%" := rfl
    have hedit := ((((a_node_is_addressed_unless_its_id_is_empty_or_has_a_slash crowded hfirst).1
      _ _ rfl htarget).1 haddress).2 hpatch ⟨some "L", none, none, none⟩ rfl).1 [] .kept
    have hplain : crowded.encoder.encodes (Response.ofJson 200
        (Node.toJson { id := "é?%", kind := "Data", label := "L" })).content = true := by
      decide +kernel
    rw [hedit]
    exact Response.sent_of_encodes hplain
  · exact (((a_node_is_addressed_unless_its_id_is_empty_or_has_a_slash crowded hsecond).1 _ _
      rfl rfl).2 (by decide) (.inl hlost)).1

/-- A server after the import of a node with a slash in its id. -/
def slashed : Server :=
  (respond { board := .new "p", ids := .serial } ⟨"PUT", "/api/graph", .value (.object [
    ("nodes", .list [.object [("id", .string "a/b"), ("type", .string "Data")]]),
    ("edges", .list [])])⟩).1

/-- The node is there, but at its address it is not found. -/
theorem a_node_with_a_slash_in_its_id_is_not_found :
    Board.Reachable "p" slashed.board ∧ slashed.board.graph.ids = ["a/b"] ∧
      nodeTarget "a/b" = "/api/graph/nodes/%61%2F%62" ∧
      (slashed.respond ⟨"DELETE", nodeTarget "a/b", .none⟩).2.status = 404 ∧
      (slashed.respond ⟨"DELETE", nodeTarget "a/b", .none⟩).1.board.graph.ids = ["a/b"] ∧
      (slashed.respond ⟨"PATCH", nodeTarget "a/b", .value (.object [])⟩).2.status = 404 := by
  refine ⟨reachable_respond .new _, ?_, ?_, ?_, ?_, ?_⟩ <;> decide +kernel

end Server

end Http

end PipelineBoard
