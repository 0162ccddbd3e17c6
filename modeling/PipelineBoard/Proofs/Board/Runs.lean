-- The runs of a board. Every action keeps the graph storable, so at any time
-- the snapshot of the board reads back as its graph and builds the same.
import Mathlib.Logic.Relation
import PipelineBoard.Board
import PipelineBoard.Proofs.Snapshot.RoundTrip

namespace PipelineBoard

namespace Board

open Relation (ReflTransGen)
open PipelineBoard.Graph (Change)

/-! ## The demo graph -/

theorem changes_seedNodes {demos : List DemoNode}
    (hdemos : ∀ demo ∈ demos, Json.allFieldsPlain demo.params = true) {g g' : Graph} {ids : IdSupply}
    (hseed : (seedNodes g ids demos).1 = .ok g') : ReflTransGen Change g g' := by
  induction demos generalizing g ids with
  | nil =>
    cases hseed
    exact .refl
  | cons demo rest ih =>
    have hrest : ∀ demo ∈ rest, Json.allFieldsPlain demo.params = true :=
      fun other hother => hdemos other (List.mem_cons_of_mem _ hother)
    unfold seedNodes at hseed
    simp only at hseed
    split at hseed
    · cases hseed
    · rename_i node g1 ids1 hcreate
      obtain ⟨hnode, hcreated⟩ := Graph.change_of_createNode (congrArg Prod.fst hcreate)
      have hparams : Change g1 (g1.replace { node with params := demo.params }) :=
        .replace node _ hnode rfl rfl fun hstored =>
          ⟨hdemos demo List.mem_cons_self, hstored.placed⟩
      exact .head hcreated (.head hparams (ih hrest hseed))

theorem changes_seedEdges {pairs : List (Nat × Nat)} {g g' : Graph} {ids : IdSupply}
    (hseed : (seedEdges g ids pairs).1 = .ok g') : ReflTransGen Change g g' := by
  induction pairs generalizing g ids with
  | nil =>
    cases hseed
    exact .refl
  | cons pair rest ih =>
    obtain ⟨source, target⟩ := pair
    unfold seedEdges at hseed
    split at hseed
    · cases hseed
    · rename_i edge g1 ids1 hadd
      exact .head (Graph.change_of_addEdge (congrArg Prod.fst hadd)) (ih hseed)

theorem changes_seeded {name : Text} {ids : IdSupply} {b : Board}
    (h : (seeded name ids).1 = .ok b) : ReflTransGen Change (Graph.empty name) b.graph := by
  have hdemos : ∀ demo ∈ demoNodes, Json.allFieldsPlain demo.params = true := by decide +kernel
  unfold seeded at h
  split at h
  · cases h
  · rename_i hnodes
    split at h
    · cases h
    · rename_i hedges
      cases h
      exact (changes_seedNodes hdemos (congrArg Prod.fst hnodes)).trans
        (changes_seedEdges (congrArg Prod.fst hedges))

/-! ## Steps and runs -/

/-- What a step makes of the graph of a board. -/
inductive Turn (b : Board) (step : Step) : Prop
  | stayed (h : step.board.graph = b.graph)
  | edited (h : Change b.graph step.board.graph)
  | renamed (name : Text) (hname : name ≠ "") (h : step.board.graph = b.graph.rename name)
  | loaded (strict : Bool) (snapshot : Json)
      (hread : Snapshot.read strict snapshot = ⟨step.notices, .ok step.board.graph⟩)
      (answer : Answer) (hresult : step.result = .ok answer)

theorem turn_edited {α : Type} {b : Board} (answer : α → Answer) {outcome : Edited α × IdSupply}
    (h : ∀ value g, outcome.1 = .ok (value, g) → Change b.graph g) :
    Turn b (b.edited answer outcome) := by
  obtain ⟨e | ⟨value, g⟩, ids⟩ := outcome
  · exact .stayed rfl
  · exact .edited (h value g rfl)

theorem turn_load (b : Board) (ids : IdSupply) (strict : Bool) (snapshot : Json) :
    Turn b (b.load ids strict snapshot) := by
  unfold load
  rcases hread : Snapshot.read strict snapshot with ⟨notices, e | g⟩
  · exact .stayed rfl
  · exact .loaded strict snapshot hread (.graph g) rfl

theorem change_of_updateNode {b : Board} {id : Text} {label summary : Option Text}
    {params : Option Json} {paramsText : Option Text} {node : Node} {g : Graph}
    (h : b.updateNode id label summary params paramsText = .ok (node, g)) : Change b.graph g := by
  unfold updateNode at h
  split at h
  · exact Graph.change_of_updateNode h
  · split at h
    · cases h
    · exact Graph.change_of_updateNode h

/-! ## Builds -/

theorem step_build_of_ok {b : Board} {build : Build} (h : b.graph.build = .ok build)
    (ids : IdSupply) :
    b.step ids .build = ⟨{ b with lastBuild := some build }, ids, [], .ok (.build build)⟩ := by
  unfold step Board.build
  rw [h]

theorem step_build_of_error {b : Board} {e : Numeral.WriteError} (h : b.graph.build = .error e)
    (ids : IdSupply) : b.step ids .build = ⟨b, ids, [], .error (.write e)⟩ := by
  unfold step Board.build
  rw [h]

theorem graph_step_build (b : Board) (ids : IdSupply) :
    (b.step ids .build).board.graph = b.graph := by
  cases h : b.graph.build with
  | ok build => rw [step_build_of_ok h]
  | error e => rw [step_build_of_error h]

/-! ## Whole runs -/

/-- Whatever the action, the graph stays, is changed by one edit, takes
another name, or gives way to one that was read. -/
theorem turn_step (b : Board) (ids : IdSupply) (action : Action) : Turn b (b.step ids action) := by
  cases action with
  | load snapshot strict => exact turn_load b ids strict snapshot
  | replaceCanvas nodes edges => exact turn_load b ids false _
  | rename name => exact .renamed (nameOrDefault name) (nameOrDefault_ne_empty name) rfl
  | createNode kind label position =>
    exact turn_edited _ fun _ _ h => (Graph.change_of_createNode h).2
  | updateNode id label summary params paramsText =>
    exact turn_edited _ fun _ _ => change_of_updateNode
  | setPosition id x y => exact turn_edited _ fun _ _ => Graph.change_of_setPosition
  | removeNode id => exact turn_edited _ fun _ _ => Graph.change_of_removeNode
  | addEdge source target => exact turn_edited _ fun _ _ => Graph.change_of_addEdge
  | removeEdge index => exact turn_edited _ fun _ _ => Graph.change_of_removeEdge
  | group members label => exact turn_edited _ fun _ _ => Graph.change_of_group
  | build => exact .stayed (graph_step_build b ids)

/-- Every action keeps the graph storable, whether it succeeds or fails. -/
theorem storable_step {b : Board} (h : b.graph.Storable) (ids : IdSupply) (action : Action) :
    (b.step ids action).board.graph.Storable := by
  cases turn_step b ids action with
  | stayed hgraph => exact hgraph ▸ h
  | edited hchange => exact h.of_change hchange
  | renamed name hname hgraph =>
    rw [hgraph]
    exact ⟨hname, h.nodes⟩
  | loaded strict snapshot hread => exact Snapshot.storable_read (congrArg _ hread)

/-- The boards that runs of actions reach under a first project name. Every
step may draw its ids from another supply. -/
inductive Reachable (name : Text) : Board → Prop
  | new : Reachable name (Board.new name)
  | seeded {ids : IdSupply} {b : Board} (h : (Board.seeded name ids).1 = .ok b) : Reachable name b
  | step {b : Board} (h : Reachable name b) (ids : IdSupply) (action : Action) :
      Reachable name (b.step ids action).board

theorem storable_of_changes {g g' : Graph} (h : g.Storable) (hrun : ReflTransGen Change g g') :
    g'.Storable := by
  induction hrun with
  | refl => exact h
  | tail _ hchange ih => exact ih.of_change hchange

theorem storable_of_reachable {name : Text} (hname : name ≠ "") {b : Board}
    (h : Reachable name b) : b.graph.Storable := by
  have hempty : (Graph.empty name).Storable := ⟨hname, by simp [Graph.empty]⟩
  induction h with
  | new => exact hempty
  | seeded h => exact storable_of_changes hempty (changes_seeded h)
  | step _ ids action ih => exact storable_step ih ids action

/-- At any time of any run the snapshot of a board is accepted and reads back
as its graph, and a build of the snapshot is the build of the board: it has the
same result, or fails in the same way. -/
theorem a_snapshot_gives_back_the_board (name : Text) (hname : name ≠ "") (b : Board)
    (h : Reachable name b) :
    (Snapshot.validate false b.snapshot).result = .ok () ∧
      (Snapshot.read false b.snapshot).result = .ok b.graph ∧
      ∀ ids, (∃ build, (b.step ids .build).result = .ok (.build build) ∧
          (b.step ids .build).board.lastBuild = some build ∧
          ((Snapshot.read false b.snapshot).result.map fun g => g.buildAs none) =
            .ok (.ok build)) ∨
        ∃ e, (b.step ids .build).result = .error (.write e) ∧ (b.step ids .build).board = b ∧
          ((Snapshot.read false b.snapshot).result.map fun g => g.buildAs none) =
            .ok (.error e) := by
  have hstorable := storable_of_reachable hname h
  have hread := Snapshot.read_toJson hstorable
  refine ⟨Snapshot.validate_toJson hstorable, hread, fun ids => ?_⟩
  have hsame : ((Snapshot.read false b.snapshot).result.map fun g => g.buildAs none) =
      .ok b.graph.build := by
    unfold snapshot
    rw [hread]
    rfl
  rw [hsame]
  cases hbuild : b.graph.build with
  | ok build => exact Or.inl ⟨build, by rw [step_build_of_ok hbuild], by rw [step_build_of_ok hbuild], rfl⟩
  | error e => exact Or.inr ⟨e, by rw [step_build_of_error hbuild], by rw [step_build_of_error hbuild], rfl⟩

/-- A board after a run that draws one id twice, moves a node to coordinates
that are no numbers, and empties the project name. -/
def worn : Board :=
  let act (b : Board) (action : Action) : Board := (b.step .serial action).board
  [.createNode "Data" none none, .createNode "Model" none none,
    .setPosition "node_0000001" .null (.string "left"), .rename ""].foldl act (new "p")

theorem the_snapshot_of_a_worn_board :
    ("p" : Text) ≠ "" ∧ Reachable "p" worn ∧ worn.graph.ids = ["node_0000001"] ∧
      worn.graph.name = "project" ∧ (Snapshot.read false worn.snapshot).result = .ok worn.graph := by
  have hname : ("p" : Text) ≠ "" := by decide
  have hrun : Reachable "p" worn := .step (.step (.step (.step .new _ _) _ _) _ _) _ _
  exact ⟨hname, hrun, by decide +kernel, by decide +kernel,
    (a_snapshot_gives_back_the_board "p" hname worn hrun).2.1⟩

end Board

end PipelineBoard
