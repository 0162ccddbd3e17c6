-- The laws of the routines. What a routine leaves behind when it fails is the
-- board that it began with, although it writes one part of it after the other.
import PipelineBoard.Board.InPlace
import PipelineBoard.Proofs.Board.Runs
import PipelineBoard.Proofs.Graph.Additions
import PipelineBoard.Proofs.Snapshot.Passes

namespace PipelineBoard

/-! ## Writes on one node -/

namespace Graph

variable {g : Graph} {node : Node}

theorem put_of_fresh (fresh : node.id ∉ g.ids) : g.put node = g.push node fresh := dif_pos fresh

/-- A change of the node that was put in last. -/
theorem adjust_replace {change : Node → Node} (h : node.id ∈ g.ids)
    (hid : (change node).id = node.id) :
    (g.replace node).adjust node.id change = g.replace (change node) := by
  unfold adjust
  rw [find?_replace_self h]
  exact replace_replace hid

end Graph

namespace Routine

variable {α β : Type} {desk after : Desk}

theorem on_bind (first : Routine α) (next : α → Routine β) :
    (first >>= next).on desk =
      match first.on desk with
      | (.ok value, after) => (next value).on after
      | (.error e, after) => (.error e, after) := by
  unfold on
  rw [ExceptT.run_bind, StateT.run_bind]
  rcases first.run.run desk with ⟨e | value, after⟩ <;> rfl

theorem on_bind_of_ok {first : Routine α} {next : α → Routine β} {value : α}
    (h : first.on desk = (.ok value, after)) : (first >>= next).on desk = (next value).on after := by
  rw [on_bind, h]

/-! ## Single reads and writes -/

theorem on_graph : graph.on desk = (.ok desk.board.graph, desk) := rfl

theorem on_draw (word : Text) :
    (draw word).on desk =
      (.ok (desk.ids.draw word).1, { desk with ids := (desk.ids.draw word).2 }) := rfl

theorem on_write (change : Graph → Graph) :
    (write change).on desk = (.ok (), desk.withGraph (change desk.board.graph)) := rfl

/-! ## Routines that do an edit -/

/-- What an edit makes of a desk: it leaves the edited graph, or the board as
it was. -/
def settle (desk : Desk) : Edited α × IdSupply → Except Trouble α × Desk
  | (.ok (value, graph), ids) => (.ok value, { desk.withGraph graph with ids })
  | (.error e, ids) => (.error (.edit e), { desk with ids })

theorem on_require (id : Text) :
    (require id).on desk =
      match desk.board.graph.require id with
      | .ok node => (.ok node, desk)
      | .error e => (.error (.edit e), desk) := by
  unfold require
  rw [on_bind_of_ok on_graph]
  cases desk.board.graph.require id <;> rfl

theorem on_addNode (node : Node) :
    (addNode node).on desk = settle desk (desk.board.graph.add node, desk.ids) := by
  unfold addNode
  rw [on_bind_of_ok on_graph]
  by_cases h : node.id ∈ desk.board.graph.ids
  · rw [if_pos h]
    unfold Graph.add
    rw [dif_pos h]
    rfl
  · rw [if_neg h, on_bind_of_ok (on_write _), Graph.put_of_fresh h, Graph.add_eq h]
    rfl

theorem on_createNode (kind : Text) (label : Option Text) (position : Option Json) :
    (createNode kind label position).on desk =
      settle desk (desk.board.graph.createNode desk.ids kind label position) := by
  unfold createNode Graph.createNode
  cases Stage.ofName? kind with
  | none => rfl
  | some stage =>
    simp only
    rw [on_bind_of_ok (on_draw _)]
    cases position with
    | none => exact on_addNode _
    | some value =>
      simp only
      cases Graph.readPosition value with
      | error e => rfl
      | ok position => exact on_addNode _

theorem on_removeNode (id : Text) :
    (removeNode id).on desk = settle desk (desk.board.graph.removeNode id, desk.ids) := by
  unfold removeNode Graph.removeNode
  rw [on_bind, on_require]
  cases desk.board.graph.require id with
  | error e => rfl
  | ok node => rfl

theorem on_setPosition (id : Text) (x y : Json) :
    (setPosition id x y).on desk = settle desk (desk.board.graph.setPosition id x y, desk.ids) := by
  unfold setPosition Graph.setPosition
  rw [on_bind, on_require]
  unfold Graph.require Graph.adjust
  cases hfound : desk.board.graph.find? id with
  | none => rfl
  | some node =>
    simp only [on_write, hfound]
    rfl

section

variable {g : Graph} {node : Node}

/-- A field of a node is written if a value for it is given. -/
theorem on_given_adjust (desk : Desk) {id : Text} (change : α → Node → Node)
    (hkeep : ∀ value node, (change value node).id = node.id) (hid : node.id = id)
    (hmem : id ∈ g.ids) (value : Option α) :
    ∃ changed : Node, changed.id = id ∧
      changed = value.elim node (fun value => change value node) ∧
      (given value fun value => write (·.adjust id (change value))).on
        (desk.withGraph (g.replace node)) = (.ok (), desk.withGraph (g.replace changed)) := by
  subst hid
  cases value with
  | none => exact ⟨node, rfl, rfl, rfl⟩
  | some value =>
    have hadjust : (desk.withGraph (g.replace node)).board.graph.adjust node.id (change value) =
        g.replace (change value node) := Graph.adjust_replace hmem (hkeep value node)
    refine ⟨change value node, hkeep value node, rfl, ?_⟩
    simp only [given, on_write, hadjust]
    rfl

theorem on_updateParams (desk : Desk) (hmem : node.id ∈ g.ids) (params : Option Json) :
    (updateParams node.id params).on (desk.withGraph (g.replace node)) =
      match Graph.updatedParams node params with
      | .ok params => (.ok (), desk.withGraph (g.replace { node with params }))
      | .error e => (.error (.edit e), desk.withGraph (g.replace node)) := by
  cases params with
  | none => rfl
  | some value =>
    simp only [updateParams, given, Graph.updatedParams]
    cases Graph.checkParams node.id value with
    | error e => rfl
    | ok params =>
      obtain ⟨_, _, rfl, hwritten⟩ := on_given_adjust desk
        (fun params node => { node with params }) (fun _ _ => rfl) rfl hmem (some params)
      exact hwritten

end

/-- The params are judged before any field is written, and what is left to
write cannot fail. -/
theorem on_updateNode (id : Text) (label summary : Option Text) (params : Option Json) :
    (updateNode id label summary params).on desk =
      settle desk (desk.board.graph.updateNode id label summary params, desk.ids) := by
  unfold updateNode Graph.updateNode
  rw [on_bind, on_require]
  cases hrequire : desk.board.graph.require id with
  | error e => rfl
  | ok node =>
    obtain ⟨hnode, rfl⟩ := Graph.of_require hrequire
    have hmem : node.id ∈ desk.board.graph.ids := List.mem_map_of_mem hnode
    have hself : desk = desk.withGraph (desk.board.graph.replace node) := by
      rw [Graph.replace_self (Graph.find?_eq_some_iff.mpr ⟨hnode, rfl⟩)]
      rfl
    have hparams := on_updateParams desk hmem params
    rw [← hself] at hparams
    simp only
    rw [on_bind, hparams]
    cases Graph.updatedParams node params with
    | error e => rfl
    | ok params' =>
      simp only
      obtain ⟨labelled, hid, hlabelled, hlabel⟩ := on_given_adjust desk
        (fun label node => { node with label }) (fun _ _ => rfl)
        (rfl : { node with params := params' }.id = node.id) hmem label
      obtain ⟨changed, hid, hchanged, hsummary⟩ := on_given_adjust desk
        (fun summary node => { node with summary }) (fun _ _ => rfl) hid hmem summary
      have hnode : changed = { node with
          label := label.getD node.label, summary := summary.getD node.summary,
          params := params' } := by
        rw [hchanged, hlabelled]
        cases label <;> cases summary <;> rfl
      rw [on_bind_of_ok hlabel, on_bind_of_ok hsummary, on_require,
        show (desk.withGraph (desk.board.graph.replace changed)).board.graph =
          desk.board.graph.replace changed from rfl, Graph.require_replace_self hid hmem, hnode]
      rfl

theorem on_updateNodeFrom (id : Text) (label summary : Option Text) (params : Option Json)
    (paramsText : Option Text) :
    (updateNodeFrom id label summary params paramsText).on desk =
      settle desk (desk.board.updateNode id label summary params paramsText, desk.ids) := by
  unfold updateNodeFrom Board.updateNode
  cases paramsText with
  | none => exact on_updateNode id label summary params
  | some text =>
    simp only
    rw [on_bind_of_ok on_graph]
    cases desk.board.graph.parseParams id text with
    | error e => rfl
    | ok parsed => exact on_updateNode id label summary _

theorem on_setParamsText (id text : Text) :
    (setParamsText id text).on desk =
      settle desk (desk.board.graph.setParamsText id text, desk.ids) := by
  unfold setParamsText Graph.setParamsText
  rw [on_bind_of_ok on_graph]
  cases desk.board.graph.parseParams id text with
  | error e => rfl
  | ok parsed => exact on_updateNode id none none _

theorem on_requireAll (others : List Text) :
    (requireAll others).on desk =
      match others.find? fun id => !desk.board.graph.contains id with
      | none => (.ok (), desk)
      | some id => (.error (.edit (.nodeNotFound id)), desk) := by
  induction others with
  | nil => rfl
  | cons id rest ih =>
    unfold requireAll
    rw [on_bind, on_require, List.find?_cons]
    by_cases h : id ∈ desk.board.graph.ids
    · obtain ⟨node, hnode⟩ := Graph.exists_require h
      rw [hnode, (desk.board.graph.contains_iff id).mpr h]
      exact ih
    · rw [Graph.require_of_not_mem h, Bool.eq_false_iff.mpr fun hc =>
        h ((desk.board.graph.contains_iff id).mp hc)]
      rfl

theorem on_group (members : List Text) (label : Text) :
    (group members label).on desk =
      settle desk (desk.board.graph.group desk.ids members label) := by
  unfold group Graph.group
  cases members with
  | nil => rfl
  | cons first others =>
    simp only
    rw [on_bind, on_require]
    cases desk.board.graph.require first with
    | error e => rfl
    | ok anchor =>
      simp only
      rw [on_bind, on_requireAll]
      cases others.find? fun id => !desk.board.graph.contains id with
      | some id => rfl
      | none =>
        simp only
        rw [on_bind_of_ok (on_draw _)]
        cases Graph.shifted anchor.position with
        | error e => rfl
        | ok position => exact on_addNode _

theorem on_addEdge (source target : Text) :
    (addEdge source target).on desk =
      settle desk (desk.board.graph.addEdge desk.ids source target "") := by
  unfold addEdge Graph.addEdge
  rw [on_bind, on_require]
  cases desk.board.graph.require source with
  | error e => rfl
  | ok _ =>
    simp only
    rw [on_bind, on_require]
    cases desk.board.graph.require target with
    | error e => rfl
    | ok _ => rfl

theorem on_removeEdge (index : Int) :
    (removeEdge index).on desk = settle desk (desk.board.graph.removeEdge index, desk.ids) := by
  unfold removeEdge Graph.removeEdge
  rw [on_bind_of_ok on_graph]
  simp only
  by_cases h : 0 ≤ index ∧ index.toNat < desk.board.graph.edges.length
  · rw [dif_pos h, if_pos h.1, List.getElem?_eq_getElem h.2]
    rfl
  · rw [dif_neg h]
    split
    · rename_i hpos
      rw [List.getElem?_eq_none (by omega)]
      rfl
    · rfl

/-- A load writes nothing but notices before both passes are over. -/
theorem on_load (strict : Bool) (snapshot : Json) :
    (load strict snapshot).on desk =
      match (Snapshot.read strict snapshot).result with
      | .ok graph => (.ok graph, {
          board := ⟨graph, none⟩, ids := desk.ids
          notices := desk.notices ++ (Snapshot.read strict snapshot).notices })
      | .error e => (.error (.load (.schema e)), {
          desk with notices := desk.notices ++ (Snapshot.read strict snapshot).notices }) := by
  unfold load
  rw [Snapshot.readInPasses_eq]
  cases (Snapshot.read strict snapshot).result <;> rfl

theorem on_build :
    build.on desk =
      match desk.board.graph.build with
      | .ok built => (.ok built, { desk with board := { desk.board with lastBuild := some built } })
      | .error e => (.error (.write e), desk) := by
  unfold build
  rw [on_bind_of_ok on_graph]
  cases desk.board.graph.build <;> rfl

end Routine

/-! ## Actions -/

/-- The trouble that an action's error stands for. -/
def Trouble.ofError : ActionError → Trouble
  | .edit e => .edit e
  | .schema e => .load (.schema e)
  | .write e => .write e

/-- A step as what a routine comes to. -/
def Step.outcome (step : Step) : Except Trouble Answer × Desk :=
  (step.result.mapError .ofError, { board := step.board, ids := step.ids, notices := step.notices })

namespace Board

open Routine

/-- The answer of a routine that comes to an edit is the step of the edit. -/
theorem on_answer {α : Type} {b : Board} {ids : IdSupply} {routine : Routine α}
    {outcome : Edited α × IdSupply}
    (h : routine.on { board := b, ids } = settle { board := b, ids } outcome)
    (answer : α → Answer) :
    (do return answer (← routine) : Routine Answer).on { board := b, ids } =
      (b.edited answer outcome).outcome := by
  rw [on_bind, h]
  obtain ⟨e | ⟨value, graph⟩, rest⟩ := outcome <;> rfl

theorem on_loaded {b : Board} (ids : IdSupply) (strict : Bool) (snapshot : Json) :
    (do return .graph (← Routine.load strict snapshot) : Routine Answer).on { board := b, ids } =
      (b.load ids strict snapshot).outcome := by
  rw [on_bind, on_load]
  unfold Board.load
  simp only
  cases (Snapshot.read strict snapshot).result <;> rfl

theorem on_built (b : Board) (ids : IdSupply) :
    (do return .build (← Routine.build) : Routine Answer).on { board := b, ids } =
      (b.step ids .build).outcome := by
  rw [on_bind, on_build]
  simp only
  cases h : b.graph.build with
  | ok build => rw [step_build_of_ok h]; rfl
  | error e => rw [step_build_of_error h]; rfl

theorem carryOut_eq_step (b : Board) (ids : IdSupply) (action : Action) :
    b.carryOut ids action = (b.step ids action).outcome := by
  unfold carryOut
  cases action with
  | load snapshot strict => exact on_loaded ids strict snapshot
  | replaceCanvas nodes edges => exact on_loaded ids false _
  | rename name => rfl
  | createNode kind label position => exact on_answer (on_createNode kind label position) .node
  | updateNode id label summary params paramsText =>
    exact on_answer (on_updateNodeFrom id label summary params paramsText) .node
  | setPosition id x y => exact on_answer (on_setPosition id x y) _
  | removeNode id => exact on_answer (on_removeNode id) .node
  | addEdge source target => exact on_answer (on_addEdge source target) .edge
  | removeEdge index => exact on_answer (on_removeEdge index) .edge
  | group members label => exact on_answer (on_group members label) .node
  | build => exact on_built b ids

/-! ## Actions that fail -/

theorem board_of_edited_error {α : Type} {b : Board} {answer : α → Answer}
    {outcome : Edited α × IdSupply} {error : ActionError}
    (h : (b.edited answer outcome).result = .error error) : (b.edited answer outcome).board = b := by
  obtain ⟨e | ⟨value, graph⟩, rest⟩ := outcome
  · rfl
  · cases h

theorem board_of_load_error {b : Board} {ids : IdSupply} {strict : Bool} {snapshot : Json}
    {error : ActionError} (h : (b.load ids strict snapshot).result = .error error) :
    (b.load ids strict snapshot).board = b := by
  unfold load at h ⊢
  simp only at h ⊢
  split at h
  · cases h
  · rfl

theorem board_of_step_error {b : Board} {ids : IdSupply} {action : Action} {error : ActionError}
    (h : (b.step ids action).result = .error error) : (b.step ids action).board = b := by
  cases action with
  | load snapshot strict => exact board_of_load_error h
  | replaceCanvas nodes edges => exact board_of_load_error h
  | rename name => cases h
  | build =>
    rcases hbuild : b.graph.build with e | build
    · rw [step_build_of_error hbuild]
    · rw [step_build_of_ok hbuild] at h
      cases h
  | createNode kind label position => exact board_of_edited_error h
  | updateNode id label summary params paramsText => exact board_of_edited_error h
  | setPosition id x y => exact board_of_edited_error h
  | removeNode id => exact board_of_edited_error h
  | addEdge source target => exact board_of_edited_error h
  | removeEdge index => exact board_of_edited_error h
  | group members label => exact board_of_edited_error h

/-- An action carried out in place, one write after the other, comes to the
step of the action. If it fails, the board is the one that it began with: its
graph, and the result of its last build. -/
theorem an_action_that_fails_changes_nothing (b : Board) (ids : IdSupply) (action : Action) :
    b.carryOut ids action = (b.step ids action).outcome ∧
      (∀ trouble, (b.carryOut ids action).1 = .error trouble → (b.carryOut ids action).2.board = b) ∧
      ∀ error, (b.step ids action).result = .error error → (b.step ids action).board = b := by
  have hstep : ∀ error, (b.step ids action).result = .error error → (b.step ids action).board = b :=
    fun _ => board_of_step_error
  refine ⟨carryOut_eq_step b ids action, fun trouble h => ?_, hstep⟩
  rw [carryOut_eq_step] at h ⊢
  unfold Step.outcome at h ⊢
  rcases hresult : (b.step ids action).result with error | answer
  · exact hstep error hresult
  · rw [hresult] at h
    cases h

/-- A board of one node whose last build failed. -/
def unfinished : Board where
  graph := ⟨"p", [{ id := "m", kind := "Model", label := "Net" }], [⟨"m", "m", .null⟩], by simp⟩
  lastBuild := some ⟨"", [.missing .loss, .missing .optimizer, .cycle]⟩

/-- A supply that gives one id again and again. -/
def repeating : IdSupply := { name := fun _ _ => "m" }

theorem an_unfinished_board_stays :
    (unfinished.carryOut repeating
        (.updateNode "m" (some "New") (some "note")
          (some (.object [("lr", .real .nan)])) none)).2.board = unfinished ∧
      (unfinished.step repeating (.createNode "Loss" none none)).board = unfinished ∧
      (unfinished.step repeating (.createNode "Loss" none none)).ids.drawn = 1 := by
  have hparams : (unfinished.carryOut repeating (.updateNode "m" (some "New") (some "note")
      (some (.object [("lr", .real .nan)])) none)).1 = .error (.edit (.paramsNotObject "m")) := rfl
  have hid : (unfinished.step repeating (.createNode "Loss" none none)).result =
      .error (.edit (.nodeExists "m")) := rfl
  obtain ⟨_, hinPlace, _⟩ := an_action_that_fails_changes_nothing unfinished repeating
    (.updateNode "m" (some "New") (some "note") (some (.object [("lr", .real .nan)])) none)
  obtain ⟨_, _, hstep⟩ := an_action_that_fails_changes_nothing unfinished repeating
    (.createNode "Loss" none none)
  exact ⟨hinPlace _ hparams, hstep _ hid, rfl⟩

end Board

end PipelineBoard
