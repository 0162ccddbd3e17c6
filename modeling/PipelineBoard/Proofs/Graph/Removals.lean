-- Nodes that are taken out of a graph. A node goes with the edges that touch it
-- and with nothing else, and so removing it undoes adding it.
import PipelineBoard.Proofs.Graph.Additions

namespace PipelineBoard.Graph

variable {g : Graph}

/-! ## What goes with an id -/

/-- A graph loses nothing with an id that it does not mention. -/
theorem without_of_unused {id : Text} (unused : ¬ g.Mentions id) : g.without id = g := by
  have hnodes : g.nodes.filter (fun node => node.id != id) = g.nodes := by
    rw [List.filter_eq_self]
    intro node hnode
    rw [bne_iff_ne]
    rintro rfl
    exact unused (mentions_of_mem_ids (List.mem_map_of_mem hnode))
  have hedges : g.edges.filter (fun edge => !edge.touches id) = g.edges := by
    rw [List.filter_eq_self]
    intro edge hedge
    rw [Bool.not_eq_true', ← Bool.not_eq_true]
    exact fun htouches => unused (Or.inr ⟨edge, hedge, htouches⟩)
  unfold without
  simp only [hnodes, hedges]

theorem without_push {node : Node} (fresh : node.id ∉ g.ids) :
    (g.push node fresh).without node.id = g.without node.id := by
  simp [without, push]

/-- Edges that touch the id are lost with it, and the others stay. -/
theorem without_withEdges_append {id : Text} {edges : List Edge}
    (h : ∀ edge ∈ edges, edge.touches id = true) :
    (g.withEdges (g.edges ++ edges)).without id = g.without id := by
  have hlost : edges.filter (fun edge => !edge.touches id) = [] := by
    rw [List.filter_eq_nil_iff]
    intro edge hedge
    simp [h edge hedge]
  simp [without, withEdges, hlost]

theorem removeNode_of_mem {node : Node} (h : node ∈ g.nodes) :
    g.removeNode node.id = .ok (node, g.without node.id) := by
  unfold removeNode
  rw [require_of_mem h]
  rfl

/-! ## The way there and back -/

/-- A node under an id that nothing mentions can be added, with any edges that
touch it, and removing it gives back the graph as it was. -/
theorem removing_a_node_undoes_adding_it (g : Graph) {node : Node} (unused : ¬ g.Mentions node.id)
    (ids : IdSupply) {calls : List (Text × Text × Text)}
    (h : ∀ call ∈ calls, (call.1 = node.id ∨ call.2.1 = node.id) ∧
      call.1 ∈ g.ids ++ [node.id] ∧ call.2.1 ∈ g.ids ++ [node.id]) :
    ∃ g₁ g₂ rest, g.add node = .ok (node, g₁) ∧ g₁.addEdges ids calls = (.ok g₂, rest) ∧
      g₂.links = g.links ++ calls.map (fun call => (call.1, call.2.1)) ∧
      g₂.removeNode node.id = .ok (node, g) := by
  have fresh : node.id ∉ g.ids := fun hmem => unused (mentions_of_mem_ids hmem)
  have hcalls : ∀ call ∈ calls, call.1 ∈ (g.push node fresh).ids ∧
      call.2.1 ∈ (g.push node fresh).ids := by
    intro call hcall
    rw [ids_push]
    exact (h call hcall).2
  obtain ⟨edges, rest, hadded, hlinks⟩ := addEdges_eq hcalls ids
  have htouches : ∀ edge ∈ edges, edge.touches node.id = true := by
    intro edge hedge
    obtain ⟨call, hcall, hsource, htarget⟩ := exists_call_of_mem hlinks edge hedge
    simp [Edge.touches, ← hsource, ← htarget, (h call hcall).1]
  have hback : ((g.push node fresh).withEdges ((g.push node fresh).edges ++ edges)).without
      node.id = g := by
    rw [without_withEdges_append htouches, without_push, without_of_unused unused]
  refine ⟨_, _, rest, add_eq fresh, hadded, ?_, ?_⟩
  · rw [← hlinks]
    exact List.map_append
  · have hnode : node ∈ ((g.push node fresh).withEdges
        ((g.push node fresh).edges ++ edges)).nodes := by simp [withEdges, push]
    rw [removeNode_of_mem hnode, hback]

/-- A graph with parallel edges, an edge to itself and edges to ids that are no
nodes. -/
def tangled : Graph where
  name := "tangled"
  nodes := [{ id := "a", kind := "Data" }, { id := "b", kind := "Model" }]
  edges := [
    { source := "a", target := "b" }, { source := "b", target := "x" },
    { source := "a", target := "b", id := .string "e" }, { source := "b", target := "b" },
    { source := "y", target := "a" }]
  ids_nodup := by decide

/-- Four edges that end at a new node, one of them at both ends. -/
def newCalls : List (Text × Text × Text) :=
  [("b", "n", ""), ("n", "n", "e"), ("n", "a", ""), ("b", "n", "")]

theorem a_loss_comes_and_goes :
    let links : List (Text × Text) := [("b", "n"), ("n", "n"), ("n", "a"), ("b", "n")]
    ¬ tangled.Mentions "n" ∧
      (∀ call ∈ newCalls, (call.1 = "n" ∨ call.2.1 = "n") ∧
        call.1 ∈ tangled.ids ++ [("n" : Text)] ∧ call.2.1 ∈ tangled.ids ++ [("n" : Text)]) ∧
      ∃ g₁ g₂ rest, tangled.add { id := "n", kind := "Loss" } =
          .ok ({ id := "n", kind := "Loss" }, g₁) ∧
        g₁.addEdges .serial newCalls = (.ok g₂, rest) ∧ g₂.links = tangled.links ++ links ∧
        g₂.removeNode "n" = .ok ({ id := "n", kind := "Loss" }, tangled) := by
  have unused : ¬ tangled.Mentions "n" := by decide
  have hcalls : ∀ call ∈ newCalls, (call.1 = "n" ∨ call.2.1 = "n") ∧
      call.1 ∈ tangled.ids ++ [("n" : Text)] ∧ call.2.1 ∈ tangled.ids ++ [("n" : Text)] := by decide
  exact ⟨unused, hcalls, removing_a_node_undoes_adding_it tangled unused .serial hcalls⟩

end PipelineBoard.Graph
