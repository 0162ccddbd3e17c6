-- Quiet runs of a board, in which nothing is loaded that gives a notice. They
-- keep the graph well formed, although no single action looks at all of it.
import PipelineBoard.Proofs.Board.Runs
import PipelineBoard.Proofs.Snapshot.Notices

namespace PipelineBoard

/-- The step gives no notice, unless it fails. A graph that fails to load may
give notices before the error that ends its inspection. -/
def Step.Quiet (step : Step) : Prop := ∀ answer, step.result = .ok answer → step.notices = []

namespace Board

open Relation (ReflTransGen)
open PipelineBoard.Graph (Change)
open Snapshot (Inspection)

theorem wellFormed_of_changes {g g' : Graph} (h : g.WellFormed) (hrun : ReflTransGen Change g g') :
    g'.WellFormed := by
  induction hrun with
  | refl => exact h
  | tail _ hchange ih => exact ih.of_change hchange

theorem wellFormed_step {b : Board} (h : b.graph.WellFormed) (ids : IdSupply) (action : Action)
    (quiet : (b.step ids action).Quiet) : (b.step ids action).board.graph.WellFormed := by
  cases turn_step b ids action with
  | stayed hgraph => exact hgraph ▸ h
  | edited hchange => exact h.of_change hchange
  | renamed name _ hgraph =>
    rw [hgraph]
    exact h.rename name
  | loaded strict snapshot hread answer hresult =>
    rw [quiet answer hresult] at hread
    exact Snapshot.wellFormed_of_read hread

/-- The boards that quiet runs of actions reach under a first project name. -/
inductive QuietlyReachable (name : Text) : Board → Prop
  | new : QuietlyReachable name (Board.new name)
  | seeded {ids : IdSupply} {b : Board} (h : (Board.seeded name ids).1 = .ok b) :
      QuietlyReachable name b
  | step {b : Board} (h : QuietlyReachable name b) (ids : IdSupply) (action : Action)
      (quiet : (b.step ids action).Quiet) : QuietlyReachable name (b.step ids action).board

theorem wellFormed_of_quietlyReachable {name : Text} {b : Board} (h : QuietlyReachable name b) :
    b.graph.WellFormed := by
  induction h with
  | new => exact Graph.wellFormed_empty name
  | seeded h => exact wellFormed_of_changes (Graph.wellFormed_empty name) (changes_seeded h)
  | step _ ids action quiet ih => exact wellFormed_step ih ids action quiet

/-- At any time of a quiet run every edge joins two nodes and every node does
the work of a stage. So the snapshot passes a strict inspection without a
notice, and a build reports a cycle just if the edges form one. A build fails
only if its script cannot be written, and there is no cycle then. -/
theorem a_quiet_run_keeps_the_graph_whole (name : Text) (b : Board)
    (h : QuietlyReachable name b) :
    (∀ edge ∈ b.graph.edges, edge.source ∈ b.graph.ids ∧ edge.target ∈ b.graph.ids) ∧
      (∀ node ∈ b.graph.nodes, ∃ stage, node.stage? = some stage) ∧
      Snapshot.validate true b.snapshot = Inspection.found () ∧
      ∀ ids, (∃ build, (b.step ids .build).result = .ok (.build build) ∧
          (("Graph contains a cycle" : Text) ∈ build.errors ↔ b.graph.HasDirectedCycle)) ∨
        ((b.step ids .build).result = .error (.write .tooManyDigits) ∧
          ¬ b.graph.HasDirectedCycle) := by
  have hwell := wellFormed_of_quietlyReachable h
  refine ⟨hwell.joined, hwell.known, Snapshot.validate_toJson_of_wellFormed hwell, fun ids => ?_⟩
  cases hbuild : b.graph.build with
  | ok build =>
    refine Or.inl ⟨build, by rw [step_build_of_ok hbuild], ?_⟩
    rw [Graph.errors_of_build_eq_ok hbuild]
    exact hwell.cycle_mem_errors_iff
  | error e =>
    exact Or.inr ⟨by rw [step_build_of_error hbuild], hwell.not_hasDirectedCycle hbuild⟩

/-- Two nodes of one id, the first of a kind that is no stage. -/
def ghosts : Json := .object [
  ("nodes", .list [
    .object [("id", .string "g"), ("type", .string "Ghost")],
    .object [("id", .string "g"), ("type", .string "Model")]]),
  ("edges", .list [])]

/-- A board after a run that joins two nodes both ways, then fails to load the
ghosts. -/
def looped : Board :=
  let act (b : Board) (turn : Nat × Action) : Board :=
    (b.step { IdSupply.serial with drawn := turn.1 } turn.2).board
  [(0, .createNode "Model" none none), (1, .createNode "Loss" none none),
    (2, .addEdge "node_0000001" "node_0000002"), (3, .addEdge "node_0000002" "node_0000001"),
    (4, .load ghosts false)].foldl act (new "p")

theorem the_cycle_of_a_looped_board :
    QuietlyReachable "p" looped ∧ looped.graph.ids = ["node_0000001", "node_0000002"] ∧
      Snapshot.validate true looped.snapshot = Inspection.found () ∧
      ∃ build, looped.graph.build = .ok build ∧ ("Graph contains a cycle" : Text) ∈ build.errors ∧
        looped.graph.HasDirectedCycle := by
  have hrun : QuietlyReachable "p" looped :=
    .step (.step (.step (.step (.step .new _ _ fun _ _ => rfl) _ _ fun _ _ => rfl)
      _ _ fun _ _ => rfl) _ _ fun _ _ => rfl) _ _ (fun _ h => by cases h)
  have hproblems : looped.graph.problems = [.missing .optimizer, .cycle] := by decide +kernel
  have hbuild : looped.graph.build = .ok ⟨"", [.missing .optimizer, .cycle]⟩ := by
    rw [← hproblems]
    exact Graph.build_of_invalid (by rw [hproblems]; decide)
  have hcycle : ("Graph contains a cycle" : Text) ∈
      Build.errors ⟨"", [.missing .optimizer, .cycle]⟩ := by decide
  obtain ⟨_, _, hstrict, hresults⟩ := a_quiet_run_keeps_the_graph_whole "p" looped hrun
  have hresult := hresults .serial
  rw [step_build_of_ok hbuild] at hresult
  obtain ⟨_, hsame, hreported⟩ | ⟨hfailed, _⟩ := hresult
  · cases hsame
    exact ⟨hrun, by decide +kernel, hstrict, _, hbuild, hcycle, hreported.mp hcycle⟩
  · cases hfailed

end Board

end PipelineBoard
