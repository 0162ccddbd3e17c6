-- What a build does not read of a node. The label and params of a node that does no
-- work of its own, or is not the first to do it, take no part, and the first
-- optimizer and trainer give a few of their params only.
import PipelineBoard.Build
import PipelineBoard.Proofs.Graph.Builds
import PipelineBoard.Proofs.Graph.Valid
import PipelineBoard.Proofs.Script.Reads

namespace PipelineBoard.Graph

open Fragment (SameGroup)

/-! ## A node in the place of another -/

/-- What stands in the place of an old node once the new one is put in. -/
def successor (node old : Node) : Node := if old.id = node.id then node else old

theorem successor_of_ne {node old : Node} (h : old.id ≠ node.id) : successor node old = old :=
  if_neg h

variable {g : Graph} {old node : Node}

theorem nodes_replace (g : Graph) (node : Node) :
    (g.replace node).nodes = g.nodes.map (successor node) := rfl

theorem order_replace (g : Graph) (node : Node) : (g.replace node).order = g.order := by
  have hlinks : (g.replace node).links = g.links := rfl
  rw [order, order, ids_replace, hlinks]

theorem id_successor (node old : Node) : (successor node old).id = old.id := by
  unfold successor
  split
  · rename_i hid
    exact hid.symm
  · rfl

theorem find?_replace (g : Graph) (node : Node) (id : Text) :
    (g.replace node).find? id = (g.find? id).map (successor node) := by
  have hsame : ((fun other : Node => decide (other.id = id)) ∘ successor node) =
      fun other => decide (other.id = id) := by
    funext other
    simp only [Function.comp, id_successor]
  rw [find?, find?, nodes_replace, List.find?_map, hsame]

theorem ordered_replace (g : Graph) (node : Node) :
    (g.replace node).ordered = g.ordered.map (successor node) := by
  rw [ordered, ordered, order_replace, List.map_filterMap]
  exact List.filterMap_congr fun id _ => find?_replace g node id

/-- The old node gives way to the new one, and no other does. -/
theorem successor_cases (found : old ∈ g.nodes) (hid : node.id = old.id) {other : Node}
    (hother : other ∈ g.nodes) :
    other = old ∧ successor node other = node ∨ successor node other = other := by
  by_cases hsame : other.id = node.id
  · have hold : other = old :=
      List.inj_on_of_nodup_map g.ids_nodup hother found (hsame.trans hid)
    exact Or.inl ⟨hold, if_pos hsame⟩
  · exact Or.inr (successor_of_ne hsame)

/-- A node does the same work as the one whose place it takes. -/
theorem is_successor (found : old ∈ g.nodes) (hid : node.id = old.id) (hkind : node.kind = old.kind)
    {other : Node} (hother : other ∈ g.nodes) (stage : Stage) :
    (successor node other).is stage = other.is stage := by
  rcases successor_cases found hid hother with ⟨rfl, hnew⟩ | hkept
  · rw [hnew, Node.is, Node.is, Node.stage?, Node.stage?, hkind]
  · rw [hkept]

theorem orderedOf_replace (found : old ∈ g.nodes) (hid : node.id = old.id)
    (hkind : node.kind = old.kind) (stage : Stage) :
    (g.replace node).orderedOf stage = (g.orderedOf stage).map (successor node) := by
  rw [orderedOf, orderedOf, ordered_replace, List.filter_map]
  congr 1
  exact List.filter_congr fun other hother =>
    is_successor found hid hkind (mem_nodes_of_mem_ordered hother) stage

/-! ## The build with another node in the place of one -/

theorem problems_replace (found : old ∈ g.nodes) (hid : node.id = old.id)
    (hkind : node.kind = old.kind) : (g.replace node).problems = g.problems := by
  have hlacking : (g.replace node).lacking = g.lacking := by
    unfold lacking
    refine List.filter_congr fun stage _ => ?_
    have hany : (g.replace node).nodes.any (·.is stage) = g.nodes.any (·.is stage) := by
      rw [nodes_replace, List.any_map, Bool.eq_iff_iff, List.any_eq_true, List.any_eq_true]
      refine exists_congr fun other => and_congr_right fun hother => ?_
      rw [Function.comp, is_successor found hid hkind hother]
    rw [hany]
  have hlength : (g.replace node).nodes.length = g.nodes.length := by
    rw [nodes_replace, List.length_map]
  rw [Graph.problems, Graph.problems, hlacking, order_replace, hlength]

/-- The build stays as it was if every fragment reads the same. -/
theorem build_replace (found : old ∈ g.nodes) (hid : node.id = old.id) (hkind : node.kind = old.kind)
    (h : ∀ stage, SameGroup stage (g.orderedOf stage) ((g.orderedOf stage).map (successor node))) :
    (g.replace node).build = g.build := by
  have hgroups : ∀ stage, SameGroup stage (g.orderedOf stage) ((g.replace node).orderedOf stage) := by
    intro stage
    rw [orderedOf_replace found hid hkind]
    exact h stage
  have hsource : Script.emit (g.replace node) = Script.emit g := by
    rw [emit_eq, emit_eq, ← Script.write_of_groups _ hgroups]
    rfl
  unfold build
  rw [problems_replace found hid hkind, hsource]

/-- A group that does not hold the old node is as it was. -/
theorem map_successor_of_not_is (node : Node) (found : old ∈ g.nodes) (hid : node.id = old.id)
    {stage : Stage} (h : old.is stage = false) :
    (g.orderedOf stage).map (successor node) = g.orderedOf stage := by
  refine (List.map_congr_left fun other hother => ?_).trans (List.map_id _)
  obtain ⟨hordered, hstage⟩ := List.mem_filter.mp hother
  rcases successor_cases found hid (mem_nodes_of_mem_ordered hordered) with ⟨rfl, _⟩ | hkept
  · rw [h] at hstage
    cases hstage
  · exact hkept

/-- A fragment reads the same if the new node differs from the old one in nothing
that it reads of one node. -/
theorem sameGroup_of_sameFor (node : Node) (found : old ∈ g.nodes) (hid : node.id = old.id)
    {stage : Stage} (h : old.SameFor stage node) :
    SameGroup stage (g.orderedOf stage) ((g.orderedOf stage).map (successor node)) := by
  apply SameGroup.of_forall₂
  rw [List.forall₂_map_right_iff, List.forall₂_same]
  intro other hother
  have hmem := mem_nodes_of_mem_ordered (List.mem_filter.mp hother).1
  rcases successor_cases found hid hmem with ⟨rfl, hnew⟩ | hkept
  · rw [hnew]
    exact h
  · rw [hkept]
    exact .refl stage other

/-- The first node of a group stays first, whatever takes the place of another. -/
theorem head?_map_successor {nodes : List Node} (h : nodes.head?.map Node.id ≠ some node.id) :
    (nodes.map (successor node)).head? = nodes.head? := by
  cases nodes with
  | nil => rfl
  | cons first rest =>
    have hne : first.id ≠ node.id := fun hsame => h (congrArg some hsame)
    rw [List.map_cons, List.head?_cons, List.head?_cons, successor_of_ne hne]

/-! ## What a build reads of a node -/

/-- A build passes over the label and the params of the node: its stage reads
none, or reads those of another node, which comes first in the dependency order. -/
def Overlooks (g : Graph) (node : Node) : Prop :=
  match node.stage? with
  | none | some .loss | some .metric | some .composite => True
  | some .data | some .transform => False
  | some stage => (g.orderedOf stage).head?.map Node.id ≠ some node.id

theorem Overlooks.sameGroup (h : g.Overlooks old) (node : Node) (found : old ∈ g.nodes)
    (hid : node.id = old.id) (stage : Stage) :
    SameGroup stage (g.orderedOf stage) ((g.orderedOf stage).map (successor node)) := by
  by_cases hstage : old.is stage = true
  · have hkind : old.stage? = some stage := by simpa [Node.is] using hstage
    unfold Overlooks at h
    rw [hkind, ← hid] at h
    cases stage with
    | data | transform => exact absurd h id
    | loss | metric => exact sameGroup_of_sameFor node found hid trivial
    | composite => exact trivial
    | split | model | optimizer | trainer =>
      exact .of_head?_eq (by decide) (by decide) (head?_map_successor h).symm
  · rw [Bool.not_eq_true] at hstage
    rw [map_successor_of_not_is node found hid hstage]
    exact .refl stage _

/-- The graph with another label and other params of one of its nodes. -/
def relabelled (g : Graph) (node : Node) (label : Text) (params : Fields) : Graph :=
  g.replace { node with label, params }

/-- Nothing of the build changes if nothing changes that its stage reads. -/
theorem buildAs_relabelled {label : Text} {params : Fields} (found : node ∈ g.nodes)
    (h : ∀ stage, SameGroup stage (g.orderedOf stage)
      ((g.orderedOf stage).map (successor { node with label, params }))) (name : Option Text) :
    (g.relabelled node label params).buildAs name = g.buildAs name := by
  cases name with
  | none => exact build_replace found rfl rfl h
  | some name => exact build_replace (g := g.rename name) found rfl rfl h

/-- A node whose stage reads less than all of its label and params. -/
theorem buildAs_relabelled_of_sameFor {stage : Stage} (hstage : node.is stage = true)
    {label : Text} {params : Fields} (found : node ∈ g.nodes)
    (h : node.SameFor stage { node with label, params }) (name : Option Text) :
    (g.relabelled node label params).buildAs name = g.buildAs name := by
  refine buildAs_relabelled found (fun other => ?_) name
  by_cases hother : other = stage
  · rw [hother]
    exact sameGroup_of_sameFor { node with label, params } found rfl h
  · have hnot : node.is other = false := by
      rw [← Bool.not_eq_true, Node.is, decide_eq_true_eq]
      intro hkind
      rw [Node.is, decide_eq_true_eq, hkind, Option.some.injEq] at hstage
      exact hother hstage
    rw [map_successor_of_not_is { node with label, params } found rfl hnot]
    exact .refl other _

/-- A build reads nothing of the label and the params of a node that it passes
over. Of an optimizer it reads the rate at most, and of a trainer the number of
epochs and the size of the batches. So other labels and other params leave it as
it is, byte for byte. -/
theorem a_build_reads_no_more_of_a_node (g : Graph) (name : Option Text) {node : Node}
    (found : node ∈ g.nodes) (label : Text) (params : Fields) :
    (g.Overlooks node → (g.relabelled node label params).buildAs name = g.buildAs name) ∧
      (node.is .optimizer → params.get? "lr" = node.params.get? "lr" →
        (g.relabelled node label params).buildAs name = g.buildAs name) ∧
      (node.is .trainer → params.get? "epochs" = node.params.get? "epochs" →
        params.get? "batch_size" = node.params.get? "batch_size" →
        (g.relabelled node label params).buildAs name = g.buildAs name) := by
  refine ⟨fun h => ?_, fun hstage hrate => ?_, fun hstage hepochs hsize => ?_⟩
  · exact buildAs_relabelled found (h.sameGroup { node with label, params } found rfl) name
  · exact buildAs_relabelled_of_sameFor hstage found hrate.symm name
  · exact buildAs_relabelled_of_sameFor hstage found ⟨hsize.symm, hepochs.symm⟩ name

/-- An optimizer that was put in first and comes second in the order. -/
def laterOptimizer : Node := { id := "o", kind := "Optimizer", params := [("lr", .int 1)] }

/-- An optimizer without a rate. -/
def earlierOptimizer : Node := { id := "p", kind := "Optimizer", label := "Adam" }

/-- A trainer with a param that no build reads. -/
def seededTrainer : Node :=
  { id := "t", kind := "Trainer", params := [("seed", .int 7), ("epochs", .int 5)] }

/-- A pipeline with two optimizers. -/
def doubled : Graph where
  name := "doubled"
  nodes := [
    laterOptimizer, seededTrainer, earlierOptimizer, { id := "m", kind := "Model" },
    { id := "l", kind := "Loss" }]
  edges := [{ source := "p", target := "o" }, { source := "m", target := "p" }]
  ids_nodup := by decide

theorem the_builds_of_two_optimizers :
    doubled.Overlooks laterOptimizer ∧
      (doubled.relabelled laterOptimizer "SGD" [("lr", .int 2)]).buildAs none =
        doubled.buildAs none ∧
      (doubled.relabelled earlierOptimizer "SGD" [("momentum", .int 1)]).buildAs none =
        doubled.buildAs none ∧
      (doubled.relabelled seededTrainer "long" [("epochs", .int 5)]).buildAs none =
        doubled.buildAs none ∧
      ∃ build, doubled.buildAs none = .ok build ∧ build.ok = true := by
  have hlater : doubled.Overlooks laterOptimizer := by
    show (doubled.orderedOf .optimizer).head?.map Node.id ≠ some "o"
    decide +kernel
  have hmem : laterOptimizer ∈ doubled.nodes ∧ earlierOptimizer ∈ doubled.nodes ∧
      seededTrainer ∈ doubled.nodes := by simp [doubled]
  refine ⟨hlater, ?_, ?_, ?_, exists_ok_build (by decide +kernel) (by decide +kernel)⟩
  · exact (a_build_reads_no_more_of_a_node doubled none hmem.1 _ _).1 hlater
  · exact (a_build_reads_no_more_of_a_node doubled none hmem.2.1 _ _).2.1 (by decide) rfl
  · exact (a_build_reads_no_more_of_a_node doubled none hmem.2.2 _ _).2.2 (by decide) rfl rfl

end PipelineBoard.Graph
