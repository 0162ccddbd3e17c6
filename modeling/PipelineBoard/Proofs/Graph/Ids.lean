-- The ids of a graph: the node that an id names, and the ids that nodes and
-- edges mention.
import Mathlib.Data.List.Nodup
import PipelineBoard.Graph.Edit
import PipelineBoard.Graph.Order

namespace PipelineBoard.Graph

variable {g : Graph}

/-! ## Nodes by their ids -/

theorem find?_eq_some_iff {id : Text} {node : Node} :
    g.find? id = some node ↔ node ∈ g.nodes ∧ node.id = id := by
  unfold find?
  constructor
  · intro h
    exact ⟨List.mem_of_find?_eq_some h, by simpa using List.find?_some h⟩
  · rintro ⟨hnode, rfl⟩
    rcases hfound : g.nodes.find? (fun other => other.id = node.id) with _ | other
    · have := List.find?_eq_none.mp hfound node hnode
      simp at this
    · have hid : other.id = node.id := by simpa using List.find?_some hfound
      rw [hfound, List.inj_on_of_nodup_map g.ids_nodup (List.mem_of_find?_eq_some hfound) hnode hid]

theorem require_of_mem {node : Node} (h : node ∈ g.nodes) : g.require node.id = .ok node := by
  rw [require, find?_eq_some_iff.mpr ⟨h, rfl⟩]

theorem exists_require {id : Text} (h : id ∈ g.ids) : ∃ node, g.require id = .ok node := by
  obtain ⟨node, hnode, rfl⟩ := List.mem_map.mp h
  exact ⟨node, require_of_mem hnode⟩

theorem of_require {id : Text} {node : Node} (h : g.require id = .ok node) :
    node ∈ g.nodes ∧ node.id = id := by
  unfold require at h
  split at h
  · rename_i found hfound
    cases h
    exact find?_eq_some_iff.mp hfound
  · cases h

theorem require_of_not_mem {id : Text} (h : id ∉ g.ids) :
    g.require id = .error (.nodeNotFound id) := by
  unfold require
  rcases hfound : g.find? id with _ | node
  · rfl
  · obtain ⟨hnode, rfl⟩ := find?_eq_some_iff.mp hfound
    exact absurd (List.mem_map_of_mem hnode) h

theorem find?_push_self {node : Node} (fresh : node.id ∉ g.ids) :
    (g.push node fresh).find? node.id = some node :=
  find?_eq_some_iff.mpr ⟨by simp [push], rfl⟩

theorem find?_push_of_ne {node : Node} (fresh : node.id ∉ g.ids) {id : Text} (h : id ≠ node.id) :
    (g.push node fresh).find? id = g.find? id := by
  have hnone : [node].find? (fun other => other.id = id) = none := by simp [Ne.symm h]
  unfold find? push
  rw [List.find?_append, hnone, Option.or_none]

/-! ## Nodes put in the place of others -/

theorem ids_replace (g : Graph) (node : Node) : (g.replace node).ids = g.ids := by
  unfold ids replace
  rw [List.map_map]
  apply List.map_congr_left
  intro old _
  by_cases hid : old.id = node.id <;> simp [hid]

section

variable {node other : Node}

theorem replace_self (h : g.find? node.id = some node) : g.replace node = g := by
  have hsame : g.nodes.map (fun old => if old.id = node.id then node else old) = g.nodes := by
    rw [List.map_congr_left (g := id), List.map_id]
    intro old hold
    by_cases hid : old.id = node.id
    · have hfound := find?_eq_some_iff.mpr ⟨hold, hid⟩
      rw [h, Option.some.injEq] at hfound
      simp [hfound]
    · simp [hid]
  unfold replace
  simp only [hsame]

theorem find?_replace_self (h : node.id ∈ g.ids) : (g.replace node).find? node.id = some node := by
  obtain ⟨old, hold, hid⟩ := List.mem_map.mp h
  exact find?_eq_some_iff.mpr ⟨List.mem_map.mpr ⟨old, hold, if_pos hid⟩, rfl⟩

theorem replace_replace (h : other.id = node.id) :
    (g.replace node).replace other = g.replace other := by
  have hsame : (g.nodes.map fun old => if old.id = node.id then node else old).map
      (fun old => if old.id = other.id then other else old) =
      g.nodes.map (fun old => if old.id = other.id then other else old) := by
    rw [List.map_map]
    refine List.map_congr_left fun old _ => ?_
    by_cases hold : old.id = node.id
    · simp [hold, h]
    · simp [hold]
  unfold replace
  simp only [hsame]

theorem require_replace_self {id : Text} (hid : node.id = id) (h : id ∈ g.ids) :
    (g.replace node).require id = .ok node := by
  subst hid
  unfold require
  rw [find?_replace_self h]

end

/-! ## Mentioned ids -/

/-- Some node has the id, or some edge starts or ends there. -/
def Mentions (g : Graph) (id : Text) : Prop :=
  id ∈ g.ids ∨ ∃ edge ∈ g.edges, edge.touches id = true

instance (g : Graph) (id : Text) : Decidable (g.Mentions id) := inferInstanceAs (Decidable (_ ∨ _))

theorem mem_links {u v : Text} :
    (u, v) ∈ g.links ↔ ∃ edge ∈ g.edges, edge.source = u ∧ edge.target = v := by
  simp [links]

theorem mentions_of_mem_ids {id : Text} (h : id ∈ g.ids) : g.Mentions id := Or.inl h

theorem mentions_source {u v : Text} (h : (u, v) ∈ g.links) : g.Mentions u := by
  obtain ⟨edge, hedge, rfl, _⟩ := mem_links.mp h
  exact Or.inr ⟨edge, hedge, by simp [Edge.touches]⟩

theorem mentions_target {u v : Text} (h : (u, v) ∈ g.links) : g.Mentions v := by
  obtain ⟨edge, hedge, _, rfl⟩ := mem_links.mp h
  exact Or.inr ⟨edge, hedge, by simp [Edge.touches]⟩

end PipelineBoard.Graph
