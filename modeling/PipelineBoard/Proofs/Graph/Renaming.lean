-- Graphs that do the same work under other ids. A build reads the kinds,
-- labels and params of the nodes in their order, the project name, and which
-- nodes the edges lead between; it reads nothing else.
import Mathlib.Data.Set.Function
import PipelineBoard.Build
import PipelineBoard.Proofs.Graph.Builds
import PipelineBoard.Proofs.Graph.Valid
import PipelineBoard.Proofs.Order.Renaming
import PipelineBoard.Proofs.Script.Reads

namespace PipelineBoard.Graph

open List (Forall₂)

/-- The nodes of the other graph do the work of the nodes of this one, in the
same order, under the ids that the map gives them. The map keeps the ids apart
that this graph mentions, and takes its edges into nodes to those of the other
graph, however often each is there. -/
structure Renames (f : Text → Text) (g g' : Graph) : Prop where
  name : g'.name = g.name
  nodes : Forall₂ (fun node node' => node'.id = f node.id ∧ node.SameWork node') g.nodes g'.nodes
  apart : Set.InjOn f {id | g.Mentions id}
  links : ∀ s t, (s, t) ∈ g'.links ∧ t ∈ g'.ids ↔
    ∃ u v, (u, v) ∈ g.links ∧ v ∈ g.ids ∧ f u = s ∧ f v = t

namespace Renames

variable {f : Text → Text} {g g' : Graph}

/-! ## The order -/

theorem ids (h : Renames f g g') : g'.ids = g.ids.map f := by
  have hnodes := h.nodes
  unfold Graph.ids
  generalize g.nodes = nodes, g'.nodes = nodes' at hnodes ⊢
  induction hnodes with
  | nil => rfl
  | cons hnode _ ih => rw [List.map_cons, List.map_cons, List.map_cons, hnode.1, ih]

theorem order_renames (h : Renames f g g') : Order.Renames f g.ids g.links g'.links where
  apart := by
    intro u v hu hv huv
    have hmention : g.Mentions u := by
      rcases hu with hu | ⟨w, _, huw⟩
      · exact mentions_of_mem_ids hu
      · exact mentions_source huw
    exact h.apart hmention (mentions_of_mem_ids hv) huv
  leads := by
    intro s v hv
    have hmem : f v ∈ g'.ids := by
      rw [h.ids]
      exact List.mem_map_of_mem hv
    constructor
    · intro hs
      obtain ⟨u, w, huw, hw, rfl, hwv⟩ := (h.links s (f v)).mp ⟨hs, hmem⟩
      have hsame := h.apart (mentions_of_mem_ids hw) (mentions_of_mem_ids hv) hwv
      exact ⟨u, hsame ▸ huw, rfl⟩
    · rintro ⟨u, huv, rfl⟩
      exact ((h.links (f u) (f v)).mpr ⟨u, v, huv, hv, rfl, rfl⟩).1

theorem order (h : Renames f g g') : g'.order = g.order.map f := by
  unfold Graph.order
  rw [h.ids]
  exact h.order_renames.topological_map g.ids_nodup

/-- An id and its new name stand for nodes that do the same work. -/
theorem find? (h : Renames f g g') {id : Text} (hid : id ∈ g.ids) :
    Option.Rel Node.SameWork (g.find? id) (g'.find? (f id)) := by
  have hsame : ∀ node ∈ g.nodes, f node.id = f id → node.id = id := fun node hnode hname =>
    h.apart (mentions_of_mem_ids (List.mem_map_of_mem hnode)) (mentions_of_mem_ids hid) hname
  have hnodes := h.nodes
  unfold Graph.find?
  generalize g.nodes = nodes, g'.nodes = nodes' at hnodes hsame ⊢
  induction hnodes with
  | nil => exact Option.Rel.none
  | @cons node node' rest rest' hnode _ ih =>
    obtain ⟨hname, hwork⟩ := hnode
    by_cases hfound : node.id = id
    · rw [List.find?_cons_of_pos (by simpa using hfound),
        List.find?_cons_of_pos (by simp [hname, hfound])]
      exact Option.Rel.some hwork
    · have hother : ¬ node'.id = f id := fun heq =>
        hfound (hsame node List.mem_cons_self (hname ▸ heq))
      rw [List.find?_cons_of_neg (by simpa using hfound),
        List.find?_cons_of_neg (by simpa using hother)]
      exact ih fun other hmem => hsame other (List.mem_cons_of_mem _ hmem)

theorem ordered (h : Renames f g g') : Forall₂ Node.SameWork g.ordered g'.ordered := by
  have hids : Forall₂ (fun u v => v = f u ∧ u ∈ g.ids) g.order (g.order.map f) := by
    rw [List.forall₂_map_right_iff, List.forall₂_same]
    exact fun u hu => ⟨rfl, Order.mem_of_mem_topological g.ids_nodup hu⟩
  unfold Graph.ordered
  rw [h.order]
  refine List.rel_filterMap (fun u v huv => ?_) hids
  obtain ⟨rfl, hu⟩ := huv
  exact h.find? hu

/-! ## The build -/

theorem sameWork (h : Renames f g g') : Forall₂ Node.SameWork g.nodes g'.nodes :=
  h.nodes.imp fun _ _ hnode => hnode.2

theorem problems (h : Renames f g g') : g'.problems = g.problems := by
  have hlength : g'.order.length = g'.nodes.length ↔ g.order.length = g.nodes.length := by
    rw [h.order, List.length_map, h.sameWork.length_eq]
  have hlacking : g'.lacking = g.lacking := by
    unfold lacking
    refine List.filter_congr fun stage _ => ?_
    rw [any_is_congr stage h.sameWork]
  unfold Graph.problems
  simp only [hlacking, hlength]

theorem build (h : Renames f g g') : g'.build = g.build := by
  have hsource : Script.emit g' = Script.emit g := by
    rw [emit_eq, emit_eq, h.name, Script.write_congr _ h.ordered]
  unfold Graph.build
  rw [h.problems, hsource]

theorem buildAs (h : Renames f g g') (name : Option Text) :
    g'.buildAs name = g.buildAs name := by
  cases name with
  | none => exact h.build
  | some name =>
    have hrenamed : Renames f (g.rename name) (g'.rename name) := ⟨rfl, h.nodes, h.apart, h.links⟩
    exact hrenamed.build

end Renames

/-! ## Changes that a build does not notice -/

/-- The graph with other ids. -/
def renamed (g : Graph) (f : Text → Text) (hf : f.Injective) : Graph where
  name := g.name
  nodes := g.nodes.map fun node => { node with id := f node.id }
  edges := g.edges.map fun edge => { edge with source := f edge.source, target := f edge.target }
  ids_nodup := by
    have hids : g.nodes.map (fun node => f node.id) = (g.nodes.map Node.id).map f := by
      rw [List.map_map]
      rfl
    rw [List.map_map]
    exact hids ▸ g.ids_nodup.map hf

/-- The graph with other summaries and positions. -/
def redrawn (g : Graph) (draw : Node → Text × Fields) : Graph where
  name := g.name
  nodes := g.nodes.map fun node =>
    { node with summary := (draw node).1, position := (draw node).2 }
  edges := g.edges
  ids_nodup := by
    rw [List.map_map]
    exact g.ids_nodup

theorem links_renamed (g : Graph) {f : Text → Text} (hf : f.Injective) :
    (g.renamed f hf).links = g.links.map fun link => (f link.1, f link.2) := by
  simp [links, renamed]

theorem renames_renamed (g : Graph) {f : Text → Text} (hf : f.Injective) :
    Renames f g (g.renamed f hf) where
  name := rfl
  nodes := by
    unfold renamed
    rw [List.forall₂_map_right_iff, List.forall₂_same]
    exact fun node _ => ⟨rfl, rfl, rfl, rfl⟩
  apart := hf.injOn
  links := by
    intro s t
    have hids : t ∈ (g.renamed f hf).ids ↔ ∃ v ∈ g.ids, f v = t := by
      simp [Graph.ids, renamed]
    rw [links_renamed, hids, List.mem_map]
    constructor
    · rintro ⟨⟨⟨u, v⟩, huv, hlink⟩, w, hw, rfl⟩
      obtain ⟨rfl, hvw⟩ := Prod.mk.inj hlink
      have hsame : v = w := hf hvw
      exact ⟨u, v, huv, hsame ▸ hw, rfl, hvw⟩
    · rintro ⟨u, v, huv, hv, rfl, rfl⟩
      exact ⟨⟨(u, v), huv, rfl⟩, v, hv, rfl⟩

theorem renames_withEdges {g : Graph} {edges : List Edge}
    (h : ∀ u, ∀ v ∈ g.ids, (u, v) ∈ (g.withEdges edges).links ↔ (u, v) ∈ g.links) :
    Renames id g (g.withEdges edges) where
  name := rfl
  nodes := List.forall₂_same.mpr fun _ _ => ⟨rfl, rfl, rfl, rfl⟩
  apart := Function.injective_id.injOn
  links := by
    intro s t
    constructor
    · rintro ⟨hst, ht⟩
      exact ⟨s, t, (h s t ht).mp hst, ht, rfl, rfl⟩
    · rintro ⟨u, v, huv, hv, rfl, rfl⟩
      exact ⟨(h u v hv).mpr huv, hv⟩

theorem renames_redrawn (g : Graph) (draw : Node → Text × Fields) :
    Renames id g (g.redrawn draw) where
  name := rfl
  nodes := by
    unfold redrawn
    rw [List.forall₂_map_right_iff, List.forall₂_same]
    exact fun node _ => ⟨rfl, rfl, rfl, rfl⟩
  apart := Function.injective_id.injOn
  links := by
    intro s t
    have hids : (g.redrawn draw).ids = g.ids := by simp [Graph.ids, redrawn]
    rw [hids]
    constructor
    · rintro ⟨hst, ht⟩
      exact ⟨s, t, hst, ht, rfl, rfl⟩
    · rintro ⟨u, v, huv, hv, rfl, rfl⟩
      exact ⟨huv, hv⟩

/-- A build reads the project name, the kinds, labels and params of the nodes
in their order, and which nodes the edges lead between. So other ids, other
edges between the same nodes, and other summaries and positions leave it as it
is, byte for byte. -/
theorem a_build_reads_only_the_work_and_the_links (g : Graph) (name : Option Text) :
    (∀ f g', Renames f g g' → g'.buildAs name = g.buildAs name) ∧
      (∀ f (hf : Function.Injective f), (g.renamed f hf).buildAs name = g.buildAs name) ∧
      (∀ edges, (∀ u, ∀ v ∈ g.ids, (u, v) ∈ (g.withEdges edges).links ↔ (u, v) ∈ g.links) →
        (g.withEdges edges).buildAs name = g.buildAs name) ∧
      ∀ draw, (g.redrawn draw).buildAs name = g.buildAs name :=
  ⟨fun _ _ h => h.buildAs name, fun _ hf => (renames_renamed g hf).buildAs name,
    fun _ h => (renames_withEdges h).buildAs name,
    fun draw => (renames_redrawn g draw).buildAs name⟩

/-- A small pipeline. -/
def sketch : Graph where
  name := "digits"
  nodes := [
    { id := "d", kind := "Data", label := "MNIST" }, { id := "m", kind := "Model" },
    { id := "l", kind := "Loss" }, { id := "o", kind := "Optimizer" }]
  edges := [{ source := "d", target := "m" }, { source := "m", target := "o" }]
  ids_nodup := by decide

/-- The same pipeline under other ids: its edges stand the other way round,
one of them twice, and one more leads to an id that is no node. -/
def sketchAgain : Graph where
  name := "digits"
  nodes := [
    { id := "n_d", kind := "Data", label := "MNIST", summary := "digits" },
    { id := "n_m", kind := "Model" }, { id := "n_l", kind := "Loss" },
    { id := "n_o", kind := "Optimizer", position := [] }]
  edges := [
    { source := "n_m", target := "n_o", id := .string "e" }, { source := "n_l", target := "x" },
    { source := "n_d", target := "n_m" }, { source := "n_m", target := "n_o" }]
  ids_nodup := by decide

theorem injective_marked : Function.Injective (fun id : Text => "n_" ++ id) :=
  fun _ _ h => (Text.append_right_inj "n_").mp h

theorem renames_sketch : Renames (fun id => "n_" ++ id) sketch sketchAgain where
  name := rfl
  nodes := .cons ⟨rfl, rfl, rfl, rfl⟩ (.cons ⟨rfl, rfl, rfl, rfl⟩
    (.cons ⟨rfl, rfl, rfl, rfl⟩ (.cons ⟨rfl, rfl, rfl, rfl⟩ .nil)))
  apart := injective_marked.injOn
  links := by
    intro s t
    have hlinks : sketch.links = ([("d", "m"), ("m", "o")] : List (Text × Text)) := rfl
    have hlinks' : sketchAgain.links = ([("n_m", "n_o"), ("n_l", "x"), ("n_d", "n_m"),
        ("n_m", "n_o")] : List (Text × Text)) := rfl
    have hids : sketch.ids = ["d", "m", "l", "o"] := rfl
    have hids' : sketchAgain.ids = ["n_d", "n_m", "n_l", "n_o"] := rfl
    rw [hlinks, hlinks', hids, hids']
    constructor
    · rintro ⟨hst, ht⟩
      simp only [List.mem_cons, Prod.mk.injEq, List.not_mem_nil, or_false] at hst
      rcases hst with ⟨rfl, rfl⟩ | ⟨rfl, rfl⟩ | ⟨rfl, rfl⟩ | ⟨rfl, rfl⟩
      · exact ⟨"m", "o", by decide⟩
      · exact absurd ht (by decide)
      · exact ⟨"d", "m", by decide⟩
      · exact ⟨"m", "o", by decide⟩
    · rintro ⟨u, v, huv, _, rfl, rfl⟩
      simp only [List.mem_cons, Prod.mk.injEq, List.not_mem_nil, or_false] at huv
      rcases huv with ⟨rfl, rfl⟩ | ⟨rfl, rfl⟩ <;> decide

theorem the_build_of_a_sketch :
    Renames (fun id => "n_" ++ id) sketch sketchAgain ∧
      sketchAgain.buildAs none = sketch.buildAs none ∧
      Function.Injective (fun id : Text => "n_" ++ id) ∧
      (sketch.renamed (fun id => "n_" ++ id) injective_marked).buildAs none = sketch.buildAs none ∧
      (∀ u, ∀ v ∈ sketch.ids, (u, v) ∈ (sketch.withEdges sketch.edges.reverse).links ↔
        (u, v) ∈ sketch.links) ∧
      (sketch.withEdges sketch.edges.reverse).buildAs none = sketch.buildAs none ∧
      ∃ build, sketch.buildAs none = .ok build ∧ build.ok = true := by
  have hedges : ∀ u, ∀ v ∈ sketch.ids, (u, v) ∈ (sketch.withEdges sketch.edges.reverse).links ↔
      (u, v) ∈ sketch.links := by
    intro u v _
    simp [links, withEdges]
  obtain ⟨hother, hmarked, hturned, _⟩ := a_build_reads_only_the_work_and_the_links sketch none
  exact ⟨renames_sketch, hother _ _ renames_sketch, injective_marked, hmarked _ injective_marked,
    hedges, hturned _ hedges, exists_ok_build (by decide +kernel) (by decide +kernel)⟩

end PipelineBoard.Graph
