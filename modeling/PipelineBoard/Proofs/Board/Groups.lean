-- Groups on a board. A group can be made of any nodes of a board whose coordinates
-- were never anything but numbers; a load may bring others, and then it depends on
-- where the first member stands.
import PipelineBoard.Proofs.Board.Runs
import PipelineBoard.Proofs.Graph.Positions

namespace PipelineBoard

/-! ## What is put where -/

namespace Snapshot

/-- The coordinates that an item of a node gives are of a kind. -/
def NodePuts (Kind : Json → Prop) (item : Json) : Prop :=
  ∀ fields given, item = .object fields → Fields.get? fields "position" = some (.object given) →
    (∀ x, Fields.get? given "x" = some x → Kind x) ∧ ∀ y, Fields.get? given "y" = some y → Kind y

/-- The coordinates that a snapshot gives are of a kind. -/
def Puts (Kind : Json → Prop) (snapshot : Json) : Prop :=
  ∀ fields items, snapshot = .object fields → Fields.get? fields "nodes" = some (.list items) →
    ∀ item ∈ items, NodePuts Kind item

variable {Kind : Json → Prop}

theorem isAt_of_holds (numbers : HasNumbers Kind) {item : Json} (hputs : NodePuts Kind item)
    {fields : Fields} (hitem : item = .object fields) {node : Node} (h : HoldsNode fields node) :
    IsAt Kind node.position := by
  rcases h.position with ⟨_, hposition⟩ | ⟨value, hvalue, given, rfl, hposition⟩
  · rw [hposition]
    exact Graph.isAt_origin numbers
  · obtain ⟨hx, hy⟩ := hputs fields given hitem hvalue
    refine ⟨_, _, hposition, ?_, ?_⟩
    · cases hgiven : given.get? "x" with
      | none => exact numbers.real _
      | some x => exact hx x hgiven
    · cases hgiven : given.get? "y" with
      | none => exact numbers.real _
      | some y => exact hy y hgiven

theorem placed_of_hold (numbers : HasNumbers Kind) {items : List Json} {nodes : List Node}
    (h : HoldNodes items nodes) (hputs : ∀ item ∈ items, NodePuts Kind item) :
    ∀ node ∈ nodes, IsAt Kind node.position := by
  induction h with
  | nil => simp
  | cons hitem _ ih =>
    obtain ⟨hput, hrest⟩ := List.forall_mem_cons.mp hputs
    obtain ⟨fields, hfields, hholds⟩ := hitem
    exact List.forall_mem_cons.mpr ⟨isAt_of_holds numbers hput hfields hholds, ih hrest⟩

theorem placed_of_read (numbers : HasNumbers Kind) {strict : Bool} {snapshot : Json} {g : Graph}
    (hputs : Puts Kind snapshot) (h : (read strict snapshot).result = .ok g) : g.Placed Kind := by
  obtain ⟨fields, nodes, edges, hvalue, hnodes, _, _, hhold, _⟩ := read_ok h
  exact placed_of_hold numbers hhold (hputs fields nodes hvalue hnodes)

end Snapshot

/-- The coordinates that an action takes as they are given are of a kind. -/
def Action.Puts (Kind : Json → Prop) : Action → Prop
  | .load snapshot _ => Snapshot.Puts Kind snapshot
  | .replaceCanvas nodes _ => ∀ items, nodes = .list items → ∀ item ∈ items, Snapshot.NodePuts Kind item
  | .setPosition _ x y => Kind x ∧ Kind y
  | _ => True

namespace Board

/-! ## Steps and runs -/

section

variable {Kind : Json → Prop} (numbers : HasNumbers Kind)
include numbers

theorem placed_seedNodes {demos : List DemoNode} {g g' : Graph} {ids : IdSupply}
    (h : g.Placed Kind) (hseed : (seedNodes g ids demos).1 = .ok g') : g'.Placed Kind := by
  induction demos generalizing g ids with
  | nil =>
    cases hseed
    exact h
  | cons demo rest ih =>
    unfold seedNodes at hseed
    simp only at hseed
    split at hseed
    · cases hseed
    · rename_i node g1 ids1 hcreate
      obtain ⟨hnode, hcreated⟩ := h.of_createNode numbers (congrArg Prod.fst hcreate)
      have hparams : (g1.replace { node with params := demo.params }).Placed Kind :=
        hcreated.replace hnode
      exact ih hparams hseed

omit numbers in
theorem placed_seedEdges {pairs : List (Nat × Nat)} {g g' : Graph} {ids : IdSupply}
    (h : g.Placed Kind) (hseed : (seedEdges g ids pairs).1 = .ok g') : g'.Placed Kind := by
  induction pairs generalizing g ids with
  | nil =>
    cases hseed
    exact h
  | cons pair rest ih =>
    obtain ⟨source, target⟩ := pair
    unfold seedEdges at hseed
    split at hseed
    · cases hseed
    · rename_i hadd
      exact ih (h.of_addEdge (congrArg Prod.fst hadd)) hseed

theorem placed_seeded {name : Text} {ids : IdSupply} {b : Board}
    (h : (seeded name ids).1 = .ok b) : b.graph.Placed Kind := by
  unfold seeded at h
  split at h
  · cases h
  · rename_i hnodes
    split at h
    · cases h
    · rename_i hedges
      cases h
      have hseeded := placed_seedNodes numbers (Graph.placed_empty name) (congrArg Prod.fst hnodes)
      exact placed_seedEdges hseeded (congrArg Prod.fst hedges)

omit numbers in
theorem placed_edited {α : Type} {b : Board} (h : b.graph.Placed Kind) (answer : α → Answer)
    {outcome : Edited α × IdSupply}
    (hedit : ∀ {value g}, outcome.1 = .ok (value, g) → g.Placed Kind) :
    (b.edited answer outcome).board.graph.Placed Kind := by
  obtain ⟨e | ⟨value, g⟩, ids⟩ := outcome
  · exact h
  · exact hedit rfl

theorem placed_load {b : Board} (h : b.graph.Placed Kind) (ids : IdSupply) (strict : Bool)
    {snapshot : Json} (hputs : Snapshot.Puts Kind snapshot) :
    (b.load ids strict snapshot).board.graph.Placed Kind := by
  unfold load
  rcases hread : Snapshot.read strict snapshot with ⟨notices, e | g⟩
  · exact h
  · exact Snapshot.placed_of_read numbers hputs (congrArg _ hread)

/-- Every action leaves a node where it is or puts it at coordinates of the kind. -/
theorem placed_step {b : Board} (h : b.graph.Placed Kind) (ids : IdSupply) {action : Action}
    (hputs : action.Puts Kind) : (b.step ids action).board.graph.Placed Kind := by
  cases action with
  | load snapshot strict => exact placed_load numbers h ids strict hputs
  | replaceCanvas nodes edges =>
    refine placed_load numbers h ids false fun fields items hfields hitems => ?_
    cases hfields
    exact hputs items (Option.some.inj hitems)
  | rename name => exact h
  | createNode kind label position =>
    exact placed_edited h _ fun hcreate => (h.of_createNode numbers hcreate).2
  | updateNode id label summary params paramsText =>
    refine placed_edited h _ fun hupdate => ?_
    unfold updateNode at hupdate
    split at hupdate
    · exact h.of_updateNode hupdate
    · split at hupdate
      · cases hupdate
      · exact h.of_updateNode hupdate
  | setPosition id x y => exact placed_edited h _ (h.of_setPosition hputs.1 hputs.2)
  | removeNode id => exact placed_edited h _ h.of_removeNode
  | addEdge source target => exact placed_edited h _ h.of_addEdge
  | removeEdge index => exact placed_edited h _ h.of_removeEdge
  | group members label => exact placed_edited h _ (h.of_group numbers)
  | build =>
    rw [graph_step_build]
    exact h

end

/-- The boards that runs of actions reach that put nodes at coordinates of a kind. -/
inductive ReachableAt (Kind : Json → Prop) (name : Text) : Board → Prop
  | new : ReachableAt Kind name (Board.new name)
  | seeded {ids : IdSupply} {b : Board} (h : (Board.seeded name ids).1 = .ok b) :
      ReachableAt Kind name b
  | step {b : Board} (h : ReachableAt Kind name b) (ids : IdSupply) (action : Action)
      (puts : action.Puts Kind) : ReachableAt Kind name (b.step ids action).board

theorem placed_of_reachableAt {Kind : Json → Prop} (numbers : HasNumbers Kind) {name : Text}
    {b : Board} (h : ReachableAt Kind name b) : b.graph.Placed Kind := by
  induction h with
  | new => exact Graph.placed_empty name
  | seeded h => exact placed_seeded numbers h
  | step _ ids action puts ih => exact placed_step numbers ih ids puts

theorem puts_any (action : Action) : action.Puts fun _ => True := by
  cases action <;> simp [Action.Puts, Snapshot.Puts, Snapshot.NodePuts]

theorem reachableAt_any {name : Text} {b : Board} (h : Reachable name b) :
    ReachableAt (fun _ => True) name b := by
  induction h with
  | new => exact .new
  | seeded h => exact .seeded h
  | step _ ids action ih => exact ih.step ids action (puts_any action)

/-! ## Groups of a board -/

/-- The step makes a group of the members, and leaves the last build as it was. -/
def MakesGroup (b : Board) (ids : IdSupply) (members : List Text) (label : Text) : Prop :=
  ∃ node next, (b.step ids (.group members label)).result = .ok (.node node) ∧
    (b.step ids (.group members label)).board = { b with graph := next } ∧
    Graph.Groups b.graph (ids.draw "comp").1 members label node next

theorem edited_of_ok {α : Type} (b : Board) (answer : α → Answer) {outcome : Edited α × IdSupply}
    {value : α} {graph : Graph} (h : outcome.1 = .ok (value, graph)) :
    (b.edited answer outcome).result = .ok (answer value) ∧
      (b.edited answer outcome).board = { b with graph } := by
  obtain ⟨_, _⟩ := outcome
  cases h
  exact ⟨rfl, rfl⟩

theorem edited_of_error {α : Type} (b : Board) (answer : α → Answer)
    {outcome : Edited α × IdSupply} {e : EditError} (h : outcome.1 = .error e) :
    (b.edited answer outcome).result = .error (.edit e) ∧
      (b.edited answer outcome).board = b := by
  obtain ⟨_, _⟩ := outcome
  cases h
  exact ⟨rfl, rfl⟩

/-- A group of nodes that are there, under an id that is free, is made on every board
that was reached by putting nodes at nothing but numbers. On any other board that can
be reached it is made if the first member stands at two numbers; else it fails, and
the board stays as it was. -/
theorem a_group_is_made_where_its_first_member_stands_at_numbers {name : Text} {b : Board}
    (h : Reachable name b) {ids : IdSupply} {members : List Text} (hsome : members ≠ [])
    (hfound : ∀ id ∈ members, id ∈ b.graph.ids) (fresh : (ids.draw "comp").1 ∉ b.graph.ids)
    (label : Text) :
    (ReachableAt (·.isCoordinate) name b → b.MakesGroup ids members label) ∧
      ∃ first ∈ b.graph.nodes, members.head? = some first.id ∧
        ∃ x y, first.position = ([("x", x), ("y", y)] : Fields) ∧
          if x.isCoordinate && y.isCoordinate then b.MakesGroup ids members label
          else (b.step ids (.group members label)).result = .error (.edit .coordinateNoNumber) ∧
            (b.step ids (.group members label)).board = b := by
  obtain ⟨id, others, rfl⟩ := List.exists_cons_of_ne_nil hsome
  obtain ⟨hid, hothers⟩ := List.forall_mem_cons.mp hfound
  obtain ⟨first, hfirst, rfl⟩ := List.mem_map.mp hid
  have hmade : IsAt (·.isCoordinate) first.position →
      b.MakesGroup ids (first.id :: others) label := by
    intro hat
    obtain ⟨node, next, hgroup, hgroups⟩ :=
      Graph.group_of_coordinates hfirst hothers ids label fresh hat
    obtain ⟨hresult, hboard⟩ := edited_of_ok b .node hgroup
    exact ⟨node, next, hresult, hboard, hgroups⟩
  constructor
  · intro hnumbers
    exact hmade (placed_of_reachableAt hasNumbers_isCoordinate hnumbers first hfirst)
  · obtain ⟨x, y, hposition, _, _⟩ :=
      placed_of_reachableAt ⟨fun _ => trivial, fun _ => trivial⟩ (reachableAt_any h) first hfirst
    refine ⟨first, hfirst, rfl, x, y, hposition, ?_⟩
    split
    · rename_i hnumbers
      obtain ⟨hx, hy⟩ := Bool.and_eq_true_iff.mp hnumbers
      exact hmade ⟨x, y, hposition, hx, hy⟩
    · rename_i hother
      exact edited_of_error b .node
        (Graph.group_of_other hfirst hothers ids label hposition (Bool.eq_false_iff.mpr hother))

/-- A snapshot of two nodes, one in each shape, that stand at numbers and at a boolean. -/
def placedNodes : Json := .object [
  ("nodes", .list [
    .object [("id", .string "a"), ("type", .string "Data"),
      ("position", .object [("x", .bool true)])],
    .object [("id", .string "b"), ("type", .string "default"),
      ("data", .object [("type", .string "Model")]),
      ("position", .object [("x", .int 7), ("y", .real .nan)])]]),
  ("edges", .list [])]

theorem puts_placedNodes : Snapshot.Puts (·.isCoordinate) placedNodes := by
  intro fields items hfields hitems item hitem
  cases hfields
  cases hitems
  rcases List.mem_pair.mp hitem with rfl | rfl
  · rintro _ _ ⟨⟩ ⟨⟩
    exact ⟨fun x hx => by cases hx; rfl, fun y hy => by cases hy⟩
  · rintro _ _ ⟨⟩ ⟨⟩
    exact ⟨fun x hx => by cases hx; rfl, fun y hy => by cases hy; rfl⟩

/-- A board after a run that moves the second of these nodes. -/
def placedBoard : Board :=
  (((new "p").step .serial (.load placedNodes false)).board.step .serial
    (.setPosition "b" (.int (-60)) (.bool false))).board

theorem a_group_of_two_shapes :
    Reachable "p" placedBoard ∧ (["b", "a", "b"] : List Text) ≠ [] ∧
      (∀ id ∈ (["b", "a", "b"] : List Text), id ∈ placedBoard.graph.ids) ∧
      (IdSupply.serial.draw "comp").1 ∉ placedBoard.graph.ids ∧
      placedBoard.MakesGroup .serial ["b", "a", "b"] "G" := by
  have hrun : Reachable "p" placedBoard := .step (.step .new _ _) _ _
  have hnumbers : ReachableAt (·.isCoordinate) "p" placedBoard :=
    .step (.step .new .serial (.load placedNodes false) puts_placedNodes) .serial
      (.setPosition "b" (.int (-60)) (.bool false)) ⟨rfl, rfl⟩
  have hfound : ∀ id ∈ (["b", "a", "b"] : List Text), id ∈ placedBoard.graph.ids := by decide +kernel
  have hfresh : (IdSupply.serial.draw "comp").1 ∉ placedBoard.graph.ids := by decide +kernel
  exact ⟨hrun, by decide, hfound, hfresh, (a_group_is_made_where_its_first_member_stands_at_numbers
    hrun (by decide) hfound hfresh "G").1 hnumbers⟩

/-- A board after the load of a node that stands at a text. -/
def strayBoard : Board :=
  ((new "p").step .serial (.load (.object [
    ("nodes", .list [.object [("id", .string "a"), ("type", .string "Data"),
      ("position", .object [("x", .string "5")])]]),
    ("edges", .list [])]) false)).board

/-- The node is there and the id is free, but no group of the node is made. -/
theorem no_group_of_a_node_at_a_text :
    Reachable "p" strayBoard ∧ (∀ id ∈ (["a"] : List Text), id ∈ strayBoard.graph.ids) ∧
      (IdSupply.serial.draw "comp").1 ∉ strayBoard.graph.ids ∧
      (strayBoard.step .serial (.group ["a"] "G")).result = .error (.edit .coordinateNoNumber) ∧
      ¬strayBoard.MakesGroup .serial ["a"] "G" := by
  have hresult : (strayBoard.step .serial (.group ["a"] "G")).result =
      .error (.edit .coordinateNoNumber) := by rfl
  refine ⟨.step .new _ _, by decide +kernel, by decide +kernel, hresult, ?_⟩
  rintro ⟨node, next, hmade, _⟩
  cases hresult.symm.trans hmade

end Board

end PipelineBoard
