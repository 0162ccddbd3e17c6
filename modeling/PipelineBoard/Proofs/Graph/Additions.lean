-- Nodes and edges that are added to a graph. An edge between two nodes can
-- always be added, and a node under an id that no node has.
import PipelineBoard.Proofs.Graph.Ids

namespace PipelineBoard.Graph

variable {g g' : Graph}

/-! ## Nodes -/

theorem add_eq {node : Node} (fresh : node.id ∉ g.ids) :
    g.add node = .ok (node, g.push node fresh) := dif_neg fresh

theorem of_add {node added : Node} (h : g.add node = .ok (added, g')) :
    ∃ fresh : added.id ∉ g.ids, added = node ∧ g' = g.push added fresh := by
  unfold add at h
  split at h
  · cases h
  · rename_i fresh
    cases h
    exact ⟨fresh, rfl, rfl⟩

/-- A group is one more composite node under the id that was drawn for it. -/
theorem of_group {ids : IdSupply} {members : List Text} {label : Text} {node : Node}
    (h : (g.group ids members label).1 = .ok (node, g')) :
    ∃ fresh : node.id ∉ g.ids, g' = g.push node fresh ∧ node.id = (ids.draw "comp").1 ∧
      node.kind = Stage.composite.name := by
  unfold group at h
  split at h
  · cases h
  · split at h
    · cases h
    · split at h
      · cases h
      · simp only at h
        split at h
        · cases h
        · obtain ⟨fresh, rfl, hpush⟩ := of_add h
          exact ⟨fresh, hpush, rfl, rfl⟩

/-! ## Edges -/

/-- Adds edges one after the other. Each has a source, a target and an id, for
which a fresh one is drawn if it is empty. The first that fails ends it. -/
def addEdges (g : Graph) (ids : IdSupply) :
    List (Text × Text × Text) → Except EditError Graph × IdSupply
  | [] => (.ok g, ids)
  | (source, target, id) :: rest =>
    match g.addEdge ids source target id with
    | (.error e, ids) => (.error e, ids)
    | (.ok (_, g), ids) => addEdges g ids rest

theorem addEdge_eq {source target : Text} (hsource : source ∈ g.ids) (htarget : target ∈ g.ids)
    (ids : IdSupply) (id : Text) :
    ∃ edge rest, g.addEdge ids source target id =
        (.ok (edge, g.withEdges (g.edges ++ [edge])), rest) ∧
      edge.source = source ∧ edge.target = target := by
  obtain ⟨_, hfound⟩ := exists_require hsource
  obtain ⟨_, hfound'⟩ := exists_require htarget
  unfold addEdge
  rw [hfound, hfound']
  exact ⟨_, _, rfl, rfl, rfl⟩

/-- Edges between nodes are all added, behind the edges that are there. -/
theorem addEdges_eq {calls : List (Text × Text × Text)}
    (h : ∀ call ∈ calls, call.1 ∈ g.ids ∧ call.2.1 ∈ g.ids) (ids : IdSupply) :
    ∃ edges rest, g.addEdges ids calls = (.ok (g.withEdges (g.edges ++ edges)), rest) ∧
      edges.map (fun edge => (edge.source, edge.target)) =
        calls.map fun call => (call.1, call.2.1) := by
  induction calls generalizing g ids with
  | nil => exact ⟨[], ids, by rw [List.append_nil]; rfl, rfl⟩
  | cons call calls ih =>
    obtain ⟨source, target, id⟩ := call
    obtain ⟨hsource, htarget⟩ := h _ List.mem_cons_self
    obtain ⟨edge, ids', hadd, rfl, rfl⟩ := addEdge_eq hsource htarget ids id
    have hrest : ∀ call ∈ calls, call.1 ∈ (g.withEdges (g.edges ++ [edge])).ids ∧
        call.2.1 ∈ (g.withEdges (g.edges ++ [edge])).ids :=
      fun other hother => h other (List.mem_cons_of_mem _ hother)
    obtain ⟨edges, rest, hedges, hlinks⟩ := ih hrest ids'
    refine ⟨edge :: edges, rest, ?_, by rw [List.map_cons, List.map_cons, hlinks]⟩
    have happend : (g.edges ++ [edge]) ++ edges = g.edges ++ edge :: edges := by simp
    unfold addEdges
    rw [hadd]
    simp only [hedges]
    unfold withEdges
    simp only [happend]

/-- Edges that were added lead between the ends of the calls that added them. -/
theorem exists_call_of_mem {edges : List Edge} {calls : List (Text × Text × Text)}
    (h : edges.map (fun edge => (edge.source, edge.target)) =
      calls.map fun call => (call.1, call.2.1)) :
    ∀ edge ∈ edges, ∃ call ∈ calls, call.1 = edge.source ∧ call.2.1 = edge.target := by
  intro edge hedge
  have hlink := List.mem_map_of_mem (f := fun edge : Edge => (edge.source, edge.target)) hedge
  rw [h] at hlink
  obtain ⟨call, hcall, hends⟩ := List.mem_map.mp hlink
  exact ⟨call, hcall, Prod.mk.inj hends⟩

end PipelineBoard.Graph
