-- Snapshots and the graphs read out of them. A graph that was read can be
-- saved, and the snapshot of such a graph reads back as the same graph.
import PipelineBoard.Proofs.Graph.Edits
import PipelineBoard.Proofs.Snapshot.Reading

namespace PipelineBoard

/-! ## Snapshots as fields -/

/-- The fields of a node's snapshot. -/
def Node.fields (node : Node) : Fields := [
  ("id", .string node.id), ("type", .string node.kind), ("label", .string node.label),
  ("params", .object node.params), ("summary", .string node.summary),
  ("position", .object node.position)]

/-- The fields of a graph's snapshot. -/
def Graph.fields (g : Graph) : Fields := [
  ("nodes", .list (g.nodes.map Node.toJson)), ("edges", .list (g.edges.map Edge.toJson)),
  ("projectName", .string g.name)]

namespace Snapshot

open Inspection

/-! ## What is held is storable -/

theorem HoldsNode.storable {fields : Fields} {node : Node} (h : HoldsNode fields node) :
    node.Storable where
  plain := by
    obtain ⟨_, hparams⟩ | ⟨_, _, _, hplain⟩ := h.params
    · rw [hparams]
      rfl
    · exact hplain
  placed := by
    obtain ⟨_, hposition⟩ | ⟨_, _, _, _, hposition⟩ := h.position
    · exact ⟨_, _, hposition⟩
    · exact ⟨_, _, hposition⟩

theorem HoldNodes.storable {items : List Json} {nodes : List Node} (h : HoldNodes items nodes) :
    ∀ node ∈ nodes, node.Storable := by
  induction h with
  | nil => simp
  | cons hitem _ ih =>
    obtain ⟨_, _, hnode⟩ := hitem
    exact List.forall_mem_cons.mpr ⟨hnode.storable, ih⟩

theorem Holds.storable {value : Json} {g : Graph} (h : Holds value g) : g.Storable := by
  obtain ⟨_, _, _, _, _, _, hname, hnodes, _⟩ := h
  refine ⟨?_, hnodes.storable⟩
  obtain ⟨_, hdefault⟩ | ⟨_, _, given, _, hgiven⟩ := hname
  · rw [hdefault]
    decide
  · rw [hgiven]
    exact nameOrDefault_ne_empty given

theorem storable_read {strict : Bool} {value : Json} {g : Graph}
    (h : (read strict value).result = .ok g) : g.Storable :=
  (read_ok h).storable

/-! ## What is storable is held by its snapshot -/

theorem holdsNode_fields {node : Node} (h : node.Storable) : HoldsNode node.fields node where
  id := rfl
  kind := rfl
  label := Or.inr ⟨_, rfl, rfl⟩
  summary := Or.inr ⟨_, rfl, rfl⟩
  params := Or.inr ⟨_, rfl, rfl, h.plain⟩
  position := by
    obtain ⟨x, y, hposition⟩ := h.placed
    refine Or.inr ⟨_, rfl, _, rfl, ?_⟩
    rw [hposition]
    rfl

/-- The snapshot of an edge has its ends, and its id unless that is null. -/
theorem holdsEdge_toJson (edge : Edge) : ∃ fields, edge.toJson = .object fields ∧
    HoldsEdge fields edge := by
  unfold Edge.toJson
  simp only
  split
  · rename_i hid
    exact ⟨_, rfl, rfl, rfl, hid.symm⟩
  · exact ⟨_, rfl, rfl, rfl, rfl⟩

theorem holdNodes_toJson {nodes : List Node} (h : ∀ node ∈ nodes, node.Storable) :
    HoldNodes (nodes.map Node.toJson) nodes := by
  unfold HoldNodes
  rw [List.forall₂_map_left_iff, List.forall₂_same]
  intro node hmem
  exact ⟨node.fields, rfl, holdsNode_fields (h node hmem)⟩

theorem holdEdges_toJson (edges : List Edge) : HoldEdges (edges.map Edge.toJson) edges := by
  unfold HoldEdges
  rw [List.forall₂_map_left_iff, List.forall₂_same]
  intro edge _
  exact holdsEdge_toJson edge

/-- A snapshot holds its graph, under the default name if the graph has none. -/
theorem holds_toJson_rename {g : Graph} (h : ∀ node ∈ g.nodes, node.Storable) :
    Holds g.toJson (g.rename (nameOrDefault g.name)) :=
  ⟨g.fields, _, _, rfl, rfl, rfl, Or.inr ⟨_, rfl, _, rfl, rfl⟩, holdNodes_toJson h,
    holdEdges_toJson g.edges⟩

theorem holds_toJson {g : Graph} (h : g.Storable) : Holds g.toJson g := by
  have hholds := holds_toJson_rename h.nodes
  rw [nameOrDefault_eq_self h.named] at hholds
  exact hholds

/-- The snapshot of a storable graph reads back as the graph. -/
theorem read_toJson {g : Graph} (h : g.Storable) : (read false g.toJson).result = .ok g := by
  rw [read_lax_of_holds (holds_toJson h)]

theorem validate_toJson {g : Graph} (h : g.Storable) :
    (validate false g.toJson).result = .ok () :=
  result_bind_of_ok g (read_toJson h)

end Snapshot

end PipelineBoard
