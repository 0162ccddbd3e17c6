-- Well-formed graphs: every node does the work of a stage and every edge joins
-- two nodes. Edits keep a graph well formed, and a build of it reports a cycle
-- just if its edges form one.
import PipelineBoard.Proofs.Graph.Builds
import PipelineBoard.Proofs.Graph.Edits

namespace PipelineBoard

namespace Graph

open Relation (TransGen)
open PipelineBoard.Order (Leads LeadsWithin)

/-- A graph of stages whose edges join its nodes, each node one that its
snapshot keeps. -/
structure WellFormed (g : Graph) : Prop where
  known : ∀ node ∈ g.nodes, ∃ stage, node.stage? = some stage
  joined : ∀ edge ∈ g.edges, edge.source ∈ g.ids ∧ edge.target ∈ g.ids
  storable : ∀ node ∈ g.nodes, node.Storable

/-! ## Edits keep a graph well formed -/

theorem mem_nodes_replace {g : Graph} {node other : Node} (h : other ∈ (g.replace node).nodes) :
    other = node ∨ other ∈ g.nodes := by
  obtain ⟨old, hold, hother⟩ := List.mem_map.mp h
  by_cases hid : old.id = node.id
  · rw [if_pos hid] at hother
    exact Or.inl hother.symm
  · rw [if_neg hid] at hother
    exact Or.inr (hother ▸ hold)

theorem mem_ids_without {g : Graph} {id other : Text} :
    other ∈ (g.without id).ids ↔ other ∈ g.ids ∧ other ≠ id := by
  unfold ids without
  simp only [List.mem_map, List.mem_filter, bne_iff_ne]
  constructor
  · rintro ⟨node, ⟨hnode, hne⟩, rfl⟩
    exact ⟨⟨node, hnode, rfl⟩, hne⟩
  · rintro ⟨⟨node, hnode, rfl⟩, hne⟩
    exact ⟨node, ⟨hnode, hne⟩, rfl⟩

theorem wellFormed_empty (name : Text) : (empty name).WellFormed := by
  constructor <;> simp [empty]

namespace WellFormed

variable {g g' : Graph}

theorem rename (h : g.WellFormed) (name : Text) : (g.rename name).WellFormed :=
  ⟨h.known, h.joined, h.storable⟩

theorem push (h : g.WellFormed) {node : Node} (fresh : node.id ∉ g.ids) {stage : Stage}
    (kind : node.stage? = some stage) (storable : node.Storable) :
    (g.push node fresh).WellFormed where
  known other hother := by
    rcases List.mem_append.mp hother with hother | hother
    · exact h.known other hother
    · rw [List.mem_singleton.mp hother]
      exact ⟨stage, kind⟩
  joined edge hedge := by
    obtain ⟨hsource, htarget⟩ := h.joined edge hedge
    rw [ids_push]
    exact ⟨List.mem_append_left _ hsource, List.mem_append_left _ htarget⟩
  storable other hother := by
    rcases List.mem_append.mp hother with hother | hother
    · exact h.storable other hother
    · rw [List.mem_singleton.mp hother]
      exact storable

theorem replace (h : g.WellFormed) {old node : Node} (found : old ∈ g.nodes)
    (kind : node.kind = old.kind) (storable : old.Storable → node.Storable) :
    (g.replace node).WellFormed where
  known other hother := by
    rcases mem_nodes_replace hother with rfl | hother
    · obtain ⟨stage, hstage⟩ := h.known old found
      rw [Node.stage?] at hstage
      exact ⟨stage, by rw [Node.stage?, kind, hstage]⟩
    · exact h.known other hother
  joined edge hedge := by
    rw [ids_replace]
    exact h.joined edge hedge
  storable other hother := by
    rcases mem_nodes_replace hother with rfl | hother
    · exact storable (h.storable old found)
    · exact h.storable other hother

/-- A node goes with every edge that starts or ends there. -/
theorem without (h : g.WellFormed) (id : Text) : (g.without id).WellFormed where
  known node hnode := h.known node (List.mem_filter.mp hnode).1
  joined edge hedge := by
    obtain ⟨hold, huntouched⟩ := List.mem_filter.mp hedge
    obtain ⟨hsource, htarget⟩ := h.joined edge hold
    simp only [Edge.touches, Bool.not_eq_true', Bool.or_eq_false_iff, decide_eq_false_iff_not]
      at huntouched
    exact ⟨mem_ids_without.mpr ⟨hsource, huntouched.1⟩, mem_ids_without.mpr ⟨htarget, huntouched.2⟩⟩
  storable node hnode := h.storable node (List.mem_filter.mp hnode).1

theorem withEdges (h : g.WellFormed) {edges : List Edge}
    (joined : ∀ edge ∈ edges, edge.source ∈ g.ids ∧ edge.target ∈ g.ids) :
    (g.withEdges edges).WellFormed := ⟨h.known, joined, h.storable⟩

theorem of_change (h : g.WellFormed) (hchange : Change g g') : g'.WellFormed := by
  cases hchange with
  | push node fresh stage kind storable =>
    exact h.push fresh (Stage.ofName?_eq_some_iff.mpr kind) storable
  | replace old node found _ kind storable => exact h.replace found kind storable
  | without id => exact h.without id
  | link edge source target =>
    apply h.withEdges
    intro other hother
    rcases List.mem_append.mp hother with hother | hother
    · exact h.joined other hother
    · rw [List.mem_singleton.mp hother]
      exact ⟨source, target⟩
  | unlink index =>
    apply h.withEdges
    intro other hother
    exact h.joined other (List.mem_of_mem_eraseIdx hother)

end WellFormed

/-! ## Cycles -/

/-- Edges that lead from an id back to it. -/
def HasDirectedCycle (g : Graph) : Prop :=
  ∃ v, TransGen (fun u w => ∃ edge ∈ g.edges, edge.source = u ∧ edge.target = w) v v

theorem WellFormed.leadsWithin_iff {g : Graph} (h : g.WellFormed) {u w : Text} :
    LeadsWithin g.ids g.links u w ↔ ∃ edge ∈ g.edges, edge.source = u ∧ edge.target = w := by
  unfold LeadsWithin Leads
  rw [mem_links]
  constructor
  · rintro ⟨_, _, hedge⟩
    exact hedge
  · rintro ⟨edge, hedge, rfl, rfl⟩
    obtain ⟨hsource, htarget⟩ := h.joined edge hedge
    exact ⟨hsource, htarget, edge, hedge, rfl, rfl⟩

theorem WellFormed.hasCycle_iff {g : Graph} (h : g.WellFormed) :
    g.HasCycle ↔ g.HasDirectedCycle := by
  have hsame : LeadsWithin g.ids g.links =
      fun u w => ∃ edge ∈ g.edges, edge.source = u ∧ edge.target = w := by
    funext u w
    exact propext h.leadsWithin_iff
  unfold HasCycle HasDirectedCycle
  rw [hsame]

theorem WellFormed.not_hasStrayEdge {g : Graph} (h : g.WellFormed) : ¬ g.HasStrayEdge := by
  rintro ⟨u, v, hu, _, huv⟩
  obtain ⟨edge, hedge, rfl, _⟩ := mem_links.mp huv
  exact hu (h.joined edge hedge).1

/-- No other error reads like that of a cycle. -/
theorem cycle_mem_expectedErrors_iff (g : Graph) :
    ("Graph contains a cycle" : Text) ∈ g.expectedErrors ↔ g.HasCycle ∨ g.HasStrayEdge := by
  unfold expectedErrors
  split_ifs <;> simp_all

/-- The errors of a well-formed graph tell of a cycle just if there is one. -/
theorem WellFormed.cycle_mem_errors_iff {g : Graph} (h : g.WellFormed) :
    ("Graph contains a cycle" : Text) ∈ g.expectedErrors ↔ g.HasDirectedCycle := by
  rw [cycle_mem_expectedErrors_iff, h.hasCycle_iff]
  exact or_iff_left h.not_hasStrayEdge

/-- A well-formed graph with a cycle is built to errors, and so its build does
not fail. -/
theorem WellFormed.not_hasDirectedCycle {g : Graph} (h : g.WellFormed) {e : Numeral.WriteError}
    (hbuild : g.build = .error e) : ¬ g.HasDirectedCycle := by
  rw [← h.cycle_mem_errors_iff,
    (expectedErrors_eq_nil_iff g).mpr (build_eq_error_iff.mp hbuild).1]
  exact List.not_mem_nil

end Graph

end PipelineBoard
