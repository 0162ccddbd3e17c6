-- Edits of a graph without problems. A new edge makes a problem just if it closes
-- a cycle, an edge that is taken out makes none, and a node that is taken out makes
-- one just if no other node does the work of a required stage.
import PipelineBoard.Proofs.Graph.Problems
import PipelineBoard.Proofs.Graph.Removals
import PipelineBoard.Proofs.Graph.WellFormed

namespace PipelineBoard.Graph

open Relation (ReflTransGen TransGen)
open PipelineBoard.Order (Leads LeadsWithin Reaches within_or_entered)

variable {g part : Graph}

theorem problems_eq_nil_iff (g : Graph) :
    g.problems = [] ↔
      (∀ stage ∈ Stage.required, ¬ g.Lacks stage) ∧ ¬ g.HasCycle ∧ ¬ g.HasStrayEdge := by
  have hlacking : g.lacking = [] ↔ ∀ stage ∈ Stage.required, ¬ g.Lacks stage := by
    unfold lacking
    simp only [List.filter_eq_nil_iff, not_any_is_iff]
  unfold problems
  rw [List.append_eq_nil_iff, List.map_eq_nil_iff, hlacking, ← not_or, ← length_order_iff]
  simp

/-! ## Parts of a graph -/

/-- Some of the nodes and some of the edges of a graph. No edge of the part has
lost the node that it starts at. -/
structure IsPartOf (part g : Graph) : Prop where
  ids : ∀ id ∈ part.ids, id ∈ g.ids
  links : ∀ link ∈ part.links, link ∈ g.links
  sources : ∀ u v, (u, v) ∈ part.links → u ∈ g.ids → u ∈ part.ids

namespace IsPartOf

theorem not_hasCycle (h : part.IsPartOf g) (acyclic : ¬ g.HasCycle) : ¬ part.HasCycle := by
  rintro ⟨v, hv⟩
  refine acyclic ⟨v, TransGen.mono ?_ _ _ hv⟩
  rintro a b ⟨ha, hb, hab⟩
  exact ⟨h.ids a ha, h.ids b hb, h.links _ hab⟩

theorem not_hasStrayEdge (h : part.IsPartOf g) (joined : ¬ g.HasStrayEdge) :
    ¬ part.HasStrayEdge := by
  rintro ⟨u, v, hu, hv, huv⟩
  exact joined ⟨u, v, fun hmem => hu (h.sources u v huv hmem), h.ids v hv, h.links _ huv⟩

/-- A part of a graph without problems lacks stages at most. -/
theorem problems_eq_nil_iff (h : part.IsPartOf g) (valid : g.problems = []) :
    part.problems = [] ↔ ∀ stage ∈ Stage.required, ¬ part.Lacks stage := by
  obtain ⟨_, acyclic, joined⟩ := g.problems_eq_nil_iff.mp valid
  rw [part.problems_eq_nil_iff]
  exact and_iff_left ⟨h.not_hasCycle acyclic, h.not_hasStrayEdge joined⟩

end IsPartOf

/-! ## Edges taken out -/

theorem mem_links_of_sublist {edges : List Edge} (h : edges.Sublist g.edges)
    {link : Text × Text} (hlink : link ∈ (g.withEdges edges).links) : link ∈ g.links :=
  (h.map _).subset hlink

theorem isPartOf_eraseEdge (g : Graph) (index : Nat) :
    (g.withEdges (g.edges.eraseIdx index)).IsPartOf g where
  ids _ h := h
  links _ h := mem_links_of_sublist (List.eraseIdx_sublist ..) h
  sources _ _ _ h := h

theorem removeEdge_eq {index : Int} (nonneg : 0 ≤ index) (inside : index < g.edges.length) :
    ∃ edge, g.edges[index.toNat]? = some edge ∧
      g.removeEdge index = .ok (edge, g.withEdges (g.edges.eraseIdx index.toNat)) := by
  have hinside : index.toNat < g.edges.length := by omega
  refine ⟨g.edges[index.toNat], List.getElem?_eq_getElem hinside, ?_⟩
  unfold removeEdge
  rw [if_pos nonneg, List.getElem?_eq_getElem hinside]

/-! ## Nodes taken out -/

theorem isPartOf_without (g : Graph) (id : Text) : (g.without id).IsPartOf g where
  ids _ h := (mem_ids_without.mp h).1
  links link h := (List.filter_sublist.map _).subset h
  sources u v huv hu := by
    obtain ⟨edge, hedge, rfl, _⟩ := mem_links.mp huv
    have huntouched : edge.touches id = false := by
      simpa using (List.mem_filter.mp hedge).2
    refine mem_ids_without.mpr ⟨hu, ?_⟩
    rintro rfl
    simp [Edge.touches] at huntouched

theorem removeNode_eq {id : Text} (h : id ∈ g.ids) :
    ∃ node, g.require id = .ok node ∧ g.removeNode id = .ok (node, g.without id) := by
  obtain ⟨node, hnode, rfl⟩ := List.mem_map.mp h
  exact ⟨node, require_of_mem hnode, removeNode_of_mem hnode⟩

/-- The node of the id does the work of the stage, and no other node does. -/
def IsOnly (g : Graph) (id : Text) (stage : Stage) : Prop :=
  (g.ofStage stage).map Node.id = [id]

theorem isOnly_iff {id : Text} {stage : Stage} :
    g.IsOnly id stage ↔ ¬ g.Lacks stage ∧ (g.without id).Lacks stage := by
  have hnodup : ((g.ofStage stage).map Node.id).Nodup :=
    (List.filter_sublist.map Node.id).nodup g.ids_nodup
  have hmem : ∀ other, other ∈ (g.ofStage stage).map Node.id ↔
      ∃ node ∈ g.nodes, node.kind = stage.name ∧ node.id = other := by
    intro other
    simp [ofStage, Node.is_iff, and_assoc]
  unfold IsOnly
  rw [← List.perm_singleton, List.perm_ext_iff_of_nodup hnodup (List.nodup_singleton id)]
  simp only [hmem, List.mem_singleton]
  unfold Lacks
  push Not
  constructor
  · intro h
    obtain ⟨node, hnode, hkind, _⟩ := (h id).mpr rfl
    refine ⟨⟨node, hnode, hkind⟩, fun other hother hkind => ?_⟩
    obtain ⟨hold, hne⟩ := List.mem_filter.mp hother
    exact absurd ((h other.id).mp ⟨other, hold, hkind, rfl⟩) (by simpa using hne)
  · rintro ⟨⟨node, hnode, hkind⟩, hothers⟩ other
    have hid : ∀ node ∈ g.nodes, node.kind = stage.name → node.id = id := by
      intro node hnode hkind
      by_contra hne
      exact hothers node (List.mem_filter.mpr ⟨hnode, by simpa using hne⟩) hkind
    constructor
    · rintro ⟨node, hnode, hkind, rfl⟩
      exact hid node hnode hkind
    · rintro rfl
      exact ⟨node, hnode, hkind, hid node hnode hkind⟩

/-! ## Edges added -/

theorem mem_links_append {edge : Edge} {link : Text × Text} :
    link ∈ (g.withEdges (g.edges ++ [edge])).links ↔
      link ∈ g.links ∨ link = (edge.source, edge.target) := by
  simp [links, withEdges]

/-- A path that may take one more step, from `u` to `v`, does without it, or
comes to `u` and goes on from `v`. -/
theorem transGen_or_through {α : Type} {r : α → α → Prop} {u v a b : α}
    (h : TransGen (fun x y => r x y ∨ x = u ∧ y = v) a b) :
    TransGen r a b ∨ ReflTransGen r a u ∧ ReflTransGen r v b := by
  induction h with
  | single hab =>
    rcases hab with hab | ⟨rfl, rfl⟩
    · exact .inl (.single hab)
    · exact .inr ⟨.refl, .refl⟩
  | tail _ hbc ih =>
    rcases hbc with hbc | ⟨rfl, rfl⟩
    · rcases ih with hab | ⟨hau, hvb⟩
      · exact .inl (hab.tail hbc)
      · exact .inr ⟨hau, hvb.tail hbc⟩
    · rcases ih with hab | ⟨hau, _⟩
      · exact .inr ⟨hab.to_reflTransGen, .refl⟩
      · exact .inr ⟨hau, .refl⟩

theorem not_hasStrayEdge_append {edge : Edge} (joined : ¬ g.HasStrayEdge)
    (source : edge.source ∈ g.ids) : ¬ (g.withEdges (g.edges ++ [edge])).HasStrayEdge := by
  rintro ⟨u, v, hu, hv, huv⟩
  rcases mem_links_append.mp huv with hold | hnew
  · exact joined ⟨u, v, hu, hv, hold⟩
  · cases hnew
    exact hu source

/-- A new edge closes a cycle just if its target leads back to its source. -/
theorem hasCycle_append_iff {edge : Edge} (acyclic : ¬ g.HasCycle) (joined : ¬ g.HasStrayEdge)
    (source : edge.source ∈ g.ids) (target : edge.target ∈ g.ids) :
    (g.withEdges (g.edges ++ [edge])).HasCycle ↔ Reaches g.links edge.target edge.source := by
  have hwithin : LeadsWithin g.ids (g.withEdges (g.edges ++ [edge])).links = fun x y =>
      LeadsWithin g.ids g.links x y ∨ x = edge.source ∧ y = edge.target := by
    funext x y
    unfold LeadsWithin Leads
    rw [mem_links_append, Prod.mk.injEq]
    grind
  unfold HasCycle
  rw [show (g.withEdges (g.edges ++ [edge])).ids = g.ids from rfl, hwithin]
  constructor
  · rintro ⟨w, hw⟩
    rcases transGen_or_through hw with hold | ⟨hsource, htarget⟩
    · exact absurd ⟨w, hold⟩ acyclic
    · have hforget : ∀ x y, LeadsWithin g.ids g.links x y → Leads g.links x y :=
        fun _ _ h => h.2.2
      exact ReflTransGen.mono hforget _ _ (htarget.trans hsource)
  · intro hback
    have hnew : (fun x y => LeadsWithin g.ids g.links x y ∨
        x = edge.source ∧ y = edge.target) edge.source edge.target := .inr ⟨rfl, rfl⟩
    refine ⟨edge.source, ?_⟩
    rcases Relation.reflTransGen_iff_eq_or_transGen.mp hback with heq | hpath
    · rw [← heq] at hnew ⊢
      exact .single hnew
    · rcases within_or_entered hpath source with hpath | ⟨w, hw, u, hu, huw⟩
      · exact .head hnew (TransGen.mono (fun _ _ => .inl) _ _ hpath)
      · exact absurd ⟨u, w, hu, hw, huw⟩ joined

/-! ## The law -/

/-- What the edits make of a graph without problems. An edge between two of its
nodes makes a problem just if there is a path, of no edge or more, from its target
to its source. Taking out an edge makes none. Taking out a node makes one just if it
is the only one of a required stage. -/
theorem a_valid_graph_stays_valid_iff (g : Graph) (valid : g.problems = []) :
    (∀ ids id u v, u ∈ g.ids → v ∈ g.ids →
      ∃ edge next rest, g.addEdge ids u v id = (.ok (edge, next), rest) ∧
        (next.problems = [] ↔ ¬ Reaches g.links v u)) ∧
      (∀ index : Int, 0 ≤ index → index < g.edges.length →
        ∃ edge next, g.removeEdge index = .ok (edge, next) ∧ next.problems = []) ∧
      ∀ id ∈ g.ids, ∃ node next, g.removeNode id = .ok (node, next) ∧
        (next.problems = [] ↔ ∀ stage ∈ Stage.required, ¬ g.IsOnly id stage) := by
  obtain ⟨staffed, acyclic, joined⟩ := g.problems_eq_nil_iff.mp valid
  refine ⟨fun ids id u v hu hv => ?_, fun index nonneg inside => ?_, fun id hid => ?_⟩
  · obtain ⟨edge, rest, hadd, rfl, rfl⟩ := addEdge_eq hu hv ids id
    refine ⟨edge, _, rest, hadd, ?_⟩
    rw [Graph.problems_eq_nil_iff, hasCycle_append_iff acyclic joined hu hv]
    constructor
    · exact fun h => h.2.1
    · exact fun h => ⟨staffed, h, not_hasStrayEdge_append joined hu⟩
  · obtain ⟨edge, _, hremove⟩ := removeEdge_eq nonneg inside
    refine ⟨edge, _, hremove, ?_⟩
    rw [(g.isPartOf_eraseEdge index.toNat).problems_eq_nil_iff valid]
    exact staffed
  · obtain ⟨node, _, hremove⟩ := removeNode_eq hid
    refine ⟨node, _, hremove, ?_⟩
    rw [(g.isPartOf_without id).problems_eq_nil_iff valid]
    refine forall₂_congr fun stage hstage => ?_
    rw [isOnly_iff, not_and]
    exact ⟨fun h _ => h, fun h => h (staffed stage hstage)⟩

/-- A pipeline with a loss to spare, and an edge to an id that is no node. -/
def spared : Graph where
  name := "p"
  nodes := [{ id := "m", kind := "Model" }, { id := "l", kind := "Loss" },
    { id := "k", kind := "Loss" }, { id := "o", kind := "Optimizer" }]
  edges := [⟨"m", "o", .null⟩, ⟨"l", "o", .null⟩, ⟨"o", "x", .null⟩]
  ids_nodup := by simp

theorem the_edits_of_a_spared_pipeline :
    spared.problems = [] ∧
      (∃ edge next rest, spared.addEdge .serial "o" "m" "" = (.ok (edge, next), rest) ∧
        next.problems ≠ []) ∧
      (∃ edge next rest, spared.addEdge .serial "k" "m" "" = (.ok (edge, next), rest) ∧
        next.problems = []) ∧
      (∃ edge next, spared.removeEdge 1 = .ok (edge, next) ∧ next.problems = []) ∧
      (∃ node next, spared.removeNode "k" = .ok (node, next) ∧ next.problems = []) ∧
      ∃ node next, spared.removeNode "m" = .ok (node, next) ∧ next.problems ≠ [] := by
  have hvalid : spared.problems = [] := by decide +kernel
  have hback : Reaches spared.links "m" "o" := .single (by simp [Leads, links, spared])
  have hclosed : ∀ w, Reaches spared.links "m" w → w ∈ (["m", "o", "x"] : List Text) := by
    intro w hw
    induction hw with
    | refl => decide
    | tail _ hlead ih =>
      simp only [Leads, links, spared, List.map_cons, List.map_nil, List.mem_cons, Prod.mk.injEq,
        List.not_mem_nil, or_false] at hlead ih ⊢
      grind
  have hfree : ¬ Reaches spared.links "m" "k" := fun h => by simpa using hclosed "k" h
  have hspare : ∀ stage ∈ Stage.required, ¬ spared.IsOnly "k" stage := by
    unfold IsOnly
    decide +kernel
  have hlast : spared.IsOnly "m" .model := by
    unfold IsOnly
    decide +kernel
  obtain ⟨hadd, hedge, hnode⟩ := a_valid_graph_stays_valid_iff spared hvalid
  obtain ⟨closing, closed, rest, hclosing, hclosedIff⟩ :=
    hadd .serial "" "o" "m" (by decide +kernel) (by decide +kernel)
  obtain ⟨forward, opened, rest', hforward, hopenedIff⟩ :=
    hadd .serial "" "k" "m" (by decide +kernel) (by decide +kernel)
  obtain ⟨spare, others, hspared, hothersIff⟩ := hnode "k" (by decide +kernel)
  obtain ⟨model, left, hmodel, hleftIff⟩ := hnode "m" (by decide +kernel)
  refine ⟨hvalid, ⟨closing, closed, rest, hclosing, fun h => hclosedIff.mp h hback⟩,
    ⟨forward, opened, rest', hforward, hopenedIff.mpr hfree⟩,
    hedge 1 (by decide) (by decide), ⟨spare, others, hspared, hothersIff.mpr hspare⟩,
    ⟨model, left, hmodel, fun h => hleftIff.mp h .model (by decide) hlast⟩⟩

end PipelineBoard.Graph
