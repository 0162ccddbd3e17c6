-- A graph without problems: all its nodes stand in the dependency order, and
-- every required stage has a node.
import PipelineBoard.Proofs.Graph.Ids
import PipelineBoard.Proofs.Graph.Problems

namespace PipelineBoard.Graph

open PipelineBoard.Order

/-- The nodes in dependency order. -/
def ordered (g : Graph) : List Node := g.order.filterMap g.find?

/-- The nodes of a stage in dependency order. -/
def orderedOf (g : Graph) (stage : Stage) : List Node := g.ordered.filter (·.is stage)

theorem emit_eq (g : Graph) :
    Script.emit g = (Script.write (nameOrDefault g.name) g.ordered).text.map (· ++ ("\n" : Text)) := rfl

variable {g : Graph}

/-! ## The nodes in order -/

theorem ordered_nodup (g : Graph) : g.ordered.Nodup := by
  unfold ordered
  apply List.Nodup.filterMap _ (topological_nodup g.links g.ids_nodup)
  intro u v node hu hv
  rw [← (find?_eq_some_iff.mp hu).2, ← (find?_eq_some_iff.mp hv).2]

theorem mem_nodes_of_mem_ordered {node : Node} (h : node ∈ g.ordered) : node ∈ g.nodes := by
  obtain ⟨_, _, hfound⟩ := List.mem_filterMap.mp h
  exact (find?_eq_some_iff.mp hfound).1

/-- In a graph without problems the order leaves no node out. -/
theorem ordered_perm (valid : g.problems = []) : g.ordered.Perm g.nodes := by
  have hlength : g.order.length = g.ids.length := by
    unfold problems at valid
    have hcycle := (List.append_eq_nil_iff.mp valid).2
    rw [ids, List.length_map]
    by_contra h
    simp [h] at hcycle
  have hall := (length_topological_iff g.ids_nodup).mp hlength
  rw [List.perm_ext_iff_of_nodup g.ordered_nodup g.ids_nodup.of_map]
  intro node
  constructor
  · exact mem_nodes_of_mem_ordered
  · intro h
    exact List.mem_filterMap.mpr
      ⟨node.id, hall _ (List.mem_map_of_mem h), find?_eq_some_iff.mpr ⟨h, rfl⟩⟩

theorem orderedOf_perm (valid : g.problems = []) (stage : Stage) :
    (g.orderedOf stage).Perm (g.ofStage stage) := (ordered_perm valid).filter _

theorem isEmpty_orderedOf (valid : g.problems = []) (stage : Stage) :
    (g.orderedOf stage).isEmpty = (g.ofStage stage).isEmpty := (orderedOf_perm valid stage).isEmpty_eq

/-! ## The required stages -/

theorem ofStage_ne_nil (valid : g.problems = []) {stage : Stage} (h : stage ∈ Stage.required) :
    g.ofStage stage ≠ [] := by
  unfold problems at valid
  have hlacking : g.lacking = [] := by simpa using (List.append_eq_nil_iff.mp valid).1
  unfold lacking at hlacking
  have hany := List.filter_eq_nil_iff.mp hlacking stage h
  unfold ofStage
  intro hnone
  rw [List.filter_eq_nil_iff] at hnone
  simp only [Bool.not_eq_true', Bool.not_eq_false, List.any_eq_true] at hany
  obtain ⟨node, hnode, his⟩ := hany
  exact hnone node hnode his

end PipelineBoard.Graph
