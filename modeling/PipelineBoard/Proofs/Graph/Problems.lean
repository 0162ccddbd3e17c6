-- The problems of a graph: exactly the stages that no node does the work of,
-- and a cycle if the edges have one or come from an id that is no node.
import PipelineBoard.Build
import PipelineBoard.Proofs.Order.Reach

namespace PipelineBoard

/-! ## Stages by their names -/

theorem Stage.ofName?_eq_some_iff {name : Text} {stage : Stage} :
    Stage.ofName? name = some stage ↔ name = stage.name := by
  constructor
  · intro h
    have := List.find?_some h
    simpa using (of_decide_eq_true this).symm
  · rintro rfl
    exact Stage.ofName?_name stage

theorem Node.is_iff {node : Node} {stage : Stage} : node.is stage = true ↔ node.kind = stage.name := by
  unfold Node.is Node.stage?
  rw [decide_eq_true_iff, Stage.ofName?_eq_some_iff]

/-! ## Problems -/

namespace Graph

open Relation PipelineBoard.Order

/-- No node does the work of the stage. -/
def Lacks (g : Graph) (stage : Stage) : Prop := ∀ node ∈ g.nodes, node.kind ≠ stage.name

/-- A directed cycle all of whose vertices are nodes. -/
def HasCycle (g : Graph) : Prop := ∃ v, TransGen (LeadsWithin g.ids g.links) v v

/-- An edge from an id that is no node into a node. -/
def HasStrayEdge (g : Graph) : Prop := ∃ u v, u ∉ g.ids ∧ v ∈ g.ids ∧ (u, v) ∈ g.links

theorem hasStrayEdge_iff (g : Graph) :
    g.HasStrayEdge ↔ ∃ v ∈ g.ids, FedFromOutside g.ids g.links v := by
  constructor
  · rintro ⟨u, v, hu, hv, huv⟩
    exact ⟨v, hv, u, hu, huv⟩
  · rintro ⟨v, hv, u, hu, huv⟩
    exact ⟨u, v, hu, hv, huv⟩

/-- The order holds every node just if there is no cycle and no stray edge. -/
theorem forall_mem_order_iff (g : Graph) :
    (∀ v ∈ g.ids, v ∈ g.order) ↔ ¬ (g.HasCycle ∨ g.HasStrayEdge) := by
  rw [hasStrayEdge_iff]
  unfold order HasCycle
  rw [← exists_blocked_iff]
  push Not
  constructor
  · intro h v hv
    exact (mem_topological_iff g.ids_nodup hv).mp (h v hv)
  · intro h v hv
    exact (mem_topological_iff g.ids_nodup hv).mpr (h v hv)

theorem length_order_iff_forall_mem (g : Graph) :
    g.order.length = g.nodes.length ↔ ∀ v ∈ g.ids, v ∈ g.order := by
  rw [← List.length_map Node.id]
  exact length_topological_iff g.ids_nodup

theorem length_order_iff (g : Graph) :
    g.order.length = g.nodes.length ↔ ¬ (g.HasCycle ∨ g.HasStrayEdge) := by
  rw [length_order_iff_forall_mem, forall_mem_order_iff]

theorem not_any_is_iff (g : Graph) (stage : Stage) :
    (!g.nodes.any (·.is stage)) = true ↔ g.Lacks stage := by
  unfold Lacks
  simp [Node.is_iff]

open Classical in
theorem lacking_eq (g : Graph) :
    g.lacking = (if g.Lacks .model then [.model] else []) ++
      (if g.Lacks .loss then [.loss] else []) ++
      (if g.Lacks .optimizer then [.optimizer] else []) := by
  unfold lacking Stage.required
  simp only [List.filter_cons, not_any_is_iff, List.filter_nil]
  split_ifs <;> rfl

open Classical in
/-- The errors that the rules ask for, in the order of the report. -/
noncomputable def expectedErrors (g : Graph) : List Text :=
  (if g.Lacks .model then ["Missing Model node"] else []) ++
    (if g.Lacks .loss then ["Missing Loss node"] else []) ++
    (if g.Lacks .optimizer then ["Missing Optimizer node"] else []) ++
    (if g.HasCycle ∨ g.HasStrayEdge then ["Graph contains a cycle"] else [])

open Classical in
theorem problems_message (g : Graph) : g.problems.map Problem.message = g.expectedErrors := by
  have hcycle : (if g.order.length = g.nodes.length then [] else [Problem.cycle]) =
      if g.HasCycle ∨ g.HasStrayEdge then [Problem.cycle] else [] := by
    simp only [length_order_iff]
    split_ifs <;> rfl
  unfold problems expectedErrors
  rw [lacking_eq, hcycle]
  split_ifs <;> rfl

theorem expectedErrors_eq_nil_iff (g : Graph) : g.expectedErrors = [] ↔ g.problems = [] := by
  rw [← problems_message, List.map_eq_nil_iff]

end Graph

end PipelineBoard
