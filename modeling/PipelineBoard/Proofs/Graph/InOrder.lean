-- A graph with its nodes put into dependency order. They have that order again,
-- so the script stays as it is, byte for byte.
import PipelineBoard.Build
import PipelineBoard.Proofs.Graph.Valid
import PipelineBoard.Proofs.Order.FixedPoint

namespace PipelineBoard.Graph

open PipelineBoard.Order

/-! ## The nodes in dependency order -/

theorem ids_ordered (g : Graph) : g.ordered.map Node.id = g.order := by
  have hfound : ∀ id ∈ g.order, (g.find? id).map Node.id = some id := by
    intro id hid
    obtain ⟨node, hnode, rfl⟩ := List.mem_map.mp (mem_of_mem_topological g.ids_nodup hid)
    rw [find?_eq_some_iff.mpr ⟨hnode, rfl⟩, Option.map_some]
  rw [ordered, List.map_filterMap, List.filterMap_congr hfound, List.filterMap_some]

theorem nodup_ids_ordered (g : Graph) : (g.ordered.map Node.id).Nodup := by
  rw [ids_ordered]
  exact topological_nodup g.links g.ids_nodup

/-- The graph with its nodes in dependency order. A node that has no place in
the order is left out. -/
def inOrder (g : Graph) : Graph where
  name := g.name
  nodes := g.ordered
  edges := g.edges
  ids_nodup := g.nodup_ids_ordered

variable {g : Graph}

theorem order_inOrder (g : Graph) : g.inOrder.order = g.order := by
  have hids : g.inOrder.ids = g.order := g.ids_ordered
  have hlinks : g.inOrder.links = g.links := rfl
  rw [order, hids, hlinks]
  exact topological_topological g.links g.ids_nodup

/-- The ids of the order stand for the nodes that they stood for. -/
theorem find?_inOrder {id : Text} (hid : id ∈ g.order) : g.inOrder.find? id = g.find? id := by
  obtain ⟨node, hnode, rfl⟩ := List.mem_map.mp (mem_of_mem_topological g.ids_nodup hid)
  have hfound := find?_eq_some_iff.mpr ⟨hnode, rfl⟩
  rw [hfound]
  exact find?_eq_some_iff.mpr ⟨List.mem_filterMap.mpr ⟨node.id, hid, hfound⟩, rfl⟩

theorem ordered_inOrder (g : Graph) : g.inOrder.ordered = g.ordered := by
  rw [ordered, ordered, order_inOrder]
  exact List.filterMap_congr fun id hid => find?_inOrder hid

/-! ## The build -/

theorem emit_inOrder (g : Graph) : Script.emit g.inOrder = Script.emit g := by
  have hname : g.inOrder.name = g.name := rfl
  rw [emit_eq, emit_eq, ordered_inOrder, hname]

theorem problems_inOrder (valid : g.problems = []) : g.inOrder.problems = [] := by
  have hperm : g.inOrder.nodes.Perm g.nodes := ordered_perm valid
  have hlacking : g.inOrder.lacking = g.lacking := by
    unfold lacking
    exact List.filter_congr fun stage _ => by rw [hperm.any_eq]
  rw [← valid, problems, problems, hlacking, order_inOrder, hperm.length_eq]

theorem build_inOrder (valid : g.problems = []) : g.inOrder.build = g.build := by
  unfold build
  rw [problems_inOrder valid, valid, emit_inOrder]

theorem buildAs_inOrder (valid : g.problems = []) (name : Option Text) :
    g.inOrder.buildAs name = g.buildAs name := by
  cases name with
  | none => exact build_inOrder valid
  | some name =>
    have hrenamed : g.inOrder.rename name = (g.rename name).inOrder := rfl
    rw [buildAs, buildAs, hrenamed]
    exact build_inOrder (g := g.rename name) valid

/-- The dependency order of distinct ids is its own dependency order, also where
it leaves ids out. So the script of a graph whose nodes are put into that order
is the script of the graph, and a graph without problems has the same build. -/
theorem a_dependency_order_is_in_order :
    (∀ (ids : List Text) (edges : List (Text × Text)), ids.Nodup →
      topological (topological ids edges) edges = topological ids edges) ∧
    ∀ g : Graph, g.inOrder.ids = g.order ∧ Script.emit g.inOrder = Script.emit g ∧
      (g.problems = [] → g.inOrder.nodes.Perm g.nodes ∧
        ∀ name, g.inOrder.buildAs name = g.buildAs name) :=
  ⟨fun _ edges distinct => topological_topological edges distinct,
    fun g => ⟨g.ids_ordered, emit_inOrder g, fun valid =>
      ⟨ordered_perm valid, buildAs_inOrder valid⟩⟩⟩

/-- A pipeline whose nodes are listed against its edges. One edge is there twice,
and one leads to an id that is no node. -/
def backwards : Graph where
  name := "digits"
  nodes := [
    { id := "o", kind := "Optimizer" }, { id := "b", kind := "Data", label := "second" },
    { id := "m", kind := "Model" }, { id := "l", kind := "Loss" },
    { id := "a", kind := "Data", label := "first" }]
  edges := [
    { source := "m", target := "o" }, { source := "a", target := "b" },
    { source := "a", target := "b" }, { source := "b", target := "x" }]
  ids_nodup := by decide

/-- Of four ids, a self-loop and an unknown source block two; a pipeline that is
listed backwards is built the same from first to last. -/
theorem the_order_of_a_pipeline_listed_backwards :
    let ids : List Text := ["d", "c", "b", "a"]
    let edges : List (Text × Text) := [("a", "b"), ("c", "c"), ("x", "d")]
    ids.Nodup ∧ topological ids edges = ["a", "b"] ∧ topological ["a", "b"] edges = ["a", "b"] ∧
      backwards.problems = [] ∧ backwards.ids = ["o", "b", "m", "l", "a"] ∧
      backwards.inOrder.ids = ["m", "l", "a", "o", "b"] ∧
      backwards.inOrder.buildAs none = backwards.buildAs none := by
  intro ids edges
  have hdistinct : ids.Nodup := by decide
  have horder : topological ids edges = ["a", "b"] := by decide +kernel
  have valid : backwards.problems = [] := by decide +kernel
  have hids : backwards.order = ["m", "l", "a", "o", "b"] := by decide +kernel
  obtain ⟨hfixed, hgraph⟩ := a_dependency_order_is_in_order
  obtain ⟨hordered, _, hbuild⟩ := hgraph backwards
  have hagain := hfixed ids edges hdistinct
  rw [horder] at hagain
  exact ⟨hdistinct, horder, hagain, valid, rfl, hordered.trans hids, (hbuild valid).2 none⟩

end PipelineBoard.Graph
