-- Nodes that a build passes over: a composite or a node of an unknown kind
-- that no edge leaves. Adding one with edges into it, as grouping does without
-- edges, changes no build.
import PipelineBoard.Board
import PipelineBoard.Proofs.Graph.Additions
import PipelineBoard.Proofs.Graph.Builds
import PipelineBoard.Proofs.Graph.Valid
import PipelineBoard.Proofs.Order.Sink
import PipelineBoard.Proofs.Script.Reads

namespace PipelineBoard

/-- The kind is that of composites, or names no stage. -/
def Node.Inert (node : Node) : Prop :=
  node.kind = Stage.composite.name ∨ ∀ stage : Stage, node.kind ≠ stage.name

theorem Node.Inert.is_eq {node : Node} (h : node.Inert) {stage : Stage} (hstage : stage ≠ .composite) :
    node.is stage = false := by
  rw [← Bool.not_eq_true, Node.is_iff]
  intro hkind
  rcases h with hcomposite | hunknown
  · have hname := Stage.ofName?_name stage
    rw [← hkind, hcomposite, Stage.ofName?_name, Option.some.injEq] at hname
    exact hstage hname.symm
  · exact hunknown stage hkind

namespace Graph

/-- The graph with one more node, and edges into it. -/
def withSink (g : Graph) (sink : Node) (fresh : sink.id ∉ g.ids) (arrivals : List Edge) : Graph :=
  (g.push sink fresh).withEdges (g.edges ++ arrivals)

/-- The node can be added without a trace in a build: it does no work, nothing
mentions its id, and the edges come from nodes and end there. -/
structure TakesSink (g : Graph) (sink : Node) (arrivals : List Edge) : Prop where
  inert : sink.Inert
  unused : ¬ g.Mentions sink.id
  arrive : ∀ edge ∈ arrivals, edge.source ∈ g.ids ∧ edge.target = sink.id

namespace TakesSink

variable {g : Graph} {sink : Node} {arrivals : List Edge}

/-! ## The order -/

theorem ids_withSink (fresh : sink.id ∉ g.ids) :
    (g.withSink sink fresh arrivals).ids = g.ids ++ [sink.id] := ids_push g sink fresh

theorem mem_links_withSink (fresh : sink.id ∉ g.ids) {u v : Text} :
    (u, v) ∈ (g.withSink sink fresh arrivals).links ↔
      (u, v) ∈ g.links ∨ ∃ edge ∈ arrivals, edge.source = u ∧ edge.target = v := by
  simp [links, withSink, withEdges]

theorem order_addsSink (h : g.TakesSink sink arrivals) (fresh : sink.id ∉ g.ids) :
    Order.AddsSink sink.id g.ids g.links (g.withSink sink fresh arrivals).links where
  fresh := fresh
  others := by
    intro u v hv
    rw [mem_links_withSink fresh, or_iff_left]
    rintro ⟨edge, hedge, _, rfl⟩
    exact hv (h.arrive edge hedge).2
  last := by
    intro v hlead
    rcases (mem_links_withSink fresh).mp hlead with hold | ⟨edge, hedge, hsource, _⟩
    · exact h.unused (mentions_source hold)
    · exact fresh (hsource ▸ (h.arrive edge hedge).1)
  arrivals := by
    intro u hlead
    rcases (mem_links_withSink fresh).mp hlead with hold | ⟨edge, hedge, rfl, _⟩
    · exact absurd (mentions_target hold) h.unused
    · exact (h.arrive edge hedge).1

theorem without_order (h : g.TakesSink sink arrivals) (fresh : sink.id ∉ g.ids) :
    Order.without sink.id (g.withSink sink fresh arrivals).order = g.order := by
  unfold Graph.order
  rw [ids_withSink fresh]
  exact (h.order_addsSink fresh).topological_without g.ids_nodup

/-- The order is complete with the sink just if it is complete without it. -/
theorem length_order_withSink (h : g.TakesSink sink arrivals) (fresh : sink.id ∉ g.ids) :
    (g.withSink sink fresh arrivals).order.length = (g.withSink sink fresh arrivals).nodes.length ↔
      g.order.length = g.nodes.length := by
  rw [length_order_iff_forall_mem, length_order_iff_forall_mem, ids_withSink fresh]
  unfold Graph.order
  rw [ids_withSink fresh]
  exact (h.order_addsSink fresh).forall_mem_iff g.ids_nodup

/-! ## The build -/

theorem problems (h : g.TakesSink sink arrivals) (fresh : sink.id ∉ g.ids) :
    (g.withSink sink fresh arrivals).problems = g.problems := by
  have hlacking : (g.withSink sink fresh arrivals).lacking = g.lacking := by
    unfold lacking
    refine List.filter_congr fun stage hstage => ?_
    have hcomposite : stage ≠ .composite := by
      rintro rfl
      exact absurd hstage (by decide)
    simp [withSink, withEdges, push, h.inert.is_eq hcomposite]
  unfold Graph.problems
  simp only [hlacking, h.length_order_withSink fresh]

/-- Ids stand for the same nodes with the sink as without it, and the sink is
in no fragment but that of composites. -/
theorem filter_filterMap_find? (h : g.TakesSink sink arrivals) (fresh : sink.id ∉ g.ids)
    {stage : Stage} (hstage : stage ≠ .composite) (ids : List Text) :
    (ids.filterMap (g.withSink sink fresh arrivals).find?).filter (·.is stage) =
      ((Order.without sink.id ids).filterMap g.find?).filter (·.is stage) := by
  induction ids with
  | nil => rfl
  | cons id ids ih =>
    by_cases hid : id = sink.id
    · have hself : (g.withSink sink fresh arrivals).find? id = some sink :=
        hid ▸ find?_push_self fresh
      have hdropped : Order.without sink.id (id :: ids) = Order.without sink.id ids :=
        List.filter_cons_of_neg (by simp [hid])
      rw [List.filterMap_cons_some hself, List.filter_cons, h.inert.is_eq hstage,
        if_neg Bool.false_ne_true, ih, hdropped]
    · have hother : (g.withSink sink fresh arrivals).find? id = g.find? id :=
        find?_push_of_ne fresh hid
      rw [Order.without_cons_of_ne hid, List.filterMap_cons, List.filterMap_cons, hother]
      split
      · exact ih
      · rw [List.filter_cons, List.filter_cons, ih]

theorem emit (h : g.TakesSink sink arrivals) (fresh : sink.id ∉ g.ids) :
    Script.emit (g.withSink sink fresh arrivals) = Script.emit g := by
  have hstages : ∀ stage, stage ≠ .composite →
      (g.withSink sink fresh arrivals).ordered.filter (·.is stage) =
        g.ordered.filter (·.is stage) := by
    intro stage hstage
    unfold ordered
    rw [h.filter_filterMap_find? fresh hstage, h.without_order fresh]
  rw [emit_eq, emit_eq, Script.write_of_stages _ hstages]
  rfl

theorem buildAs (h : g.TakesSink sink arrivals) (fresh : sink.id ∉ g.ids) (name : Option Text) :
    (g.withSink sink fresh arrivals).buildAs name = g.buildAs name := by
  have hbuild : ∀ g' : Graph, ∀ fresh' : sink.id ∉ g'.ids, g'.TakesSink sink arrivals →
      (g'.withSink sink fresh' arrivals).build = g'.build := by
    intro g' fresh' h'
    unfold Graph.build
    rw [h'.problems fresh', h'.emit fresh']
  cases name with
  | none => exact hbuild g fresh h
  | some name => exact hbuild (g.rename name) fresh ⟨h.inert, h.unused, h.arrive⟩

end TakesSink

/-! ## The edits that add a sink -/

variable {g : Graph}

/-- A node that nothing mentions and edges from nodes into it can be added,
and make up a sink. -/
theorem add_sink {sink : Node} (inert : sink.Inert) (unused : ¬ g.Mentions sink.id)
    {arrivals : List (Text × Text)} (h : ∀ arrival ∈ arrivals, arrival.1 ∈ g.ids)
    (ids : IdSupply) :
    ∃ (fresh : sink.id ∉ g.ids) (edges : List Edge) (rest : IdSupply),
      g.TakesSink sink edges ∧ g.add sink = .ok (sink, g.push sink fresh) ∧
        (g.push sink fresh).addEdges ids
          (arrivals.map fun arrival => (arrival.1, sink.id, arrival.2)) =
            (.ok (g.withSink sink fresh edges), rest) := by
  have fresh : sink.id ∉ g.ids := fun hmem => unused (mentions_of_mem_ids hmem)
  have hcalls : ∀ call ∈ arrivals.map fun arrival => (arrival.1, sink.id, arrival.2),
      call.1 ∈ (g.push sink fresh).ids ∧ call.2.1 ∈ (g.push sink fresh).ids := by
    intro call hcall
    obtain ⟨arrival, harrival, rfl⟩ := List.mem_map.mp hcall
    simp [h arrival harrival]
  obtain ⟨edges, rest, hedges, hlinks⟩ := addEdges_eq hcalls ids
  refine ⟨fresh, edges, rest, ⟨inert, unused, fun edge hedge => ?_⟩, add_eq fresh, hedges⟩
  obtain ⟨call, hcall, hsource, htarget⟩ := exists_call_of_mem hlinks edge hedge
  obtain ⟨arrival, harrival, rfl⟩ := List.mem_map.mp hcall
  exact ⟨hsource ▸ h arrival harrival, htarget.symm⟩

theorem buildAs_group {ids : IdSupply} (unused : ¬ g.Mentions (ids.draw "comp").1)
    {members : List Text} {label : Text} {node : Node} {g' : Graph}
    (h : (g.group ids members label).1 = .ok (node, g')) (name : Option Text) :
    g'.buildAs name = g.buildAs name := by
  obtain ⟨fresh, rfl, hid, hkind⟩ := of_group h
  have htakes : g.TakesSink node [] := ⟨Or.inl hkind, hid ▸ unused, by simp⟩
  have hpush : g.withSink node fresh [] = g.push node fresh := by
    simp [withSink, withEdges, push]
  rw [← hpush, htakes.buildAs fresh]

/-- A composite or a node of an unknown kind can be added under an id that
nothing mentions, with any edges from nodes into it, and every build stays as
it was, with a script or with errors. So does every build when nodes are
grouped, or cannot be grouped. -/
theorem a_sink_without_work_changes_no_build (g : Graph) (name : Option Text) :
    (∀ (sink : Node) (arrivals : List (Text × Text)) (ids : IdSupply), sink.Inert →
        ¬ g.Mentions sink.id → (∀ arrival ∈ arrivals, arrival.1 ∈ g.ids) →
        ∃ g₁ g₂ rest, g.add sink = .ok (sink, g₁) ∧
          g₁.addEdges ids (arrivals.map fun arrival => (arrival.1, sink.id, arrival.2)) =
            (.ok g₂, rest) ∧
          g₂.buildAs name = g.buildAs name) ∧
      ∀ (members : List Text) (label : Text) (ids : IdSupply) (lastBuild : Option Build),
        ¬ g.Mentions (ids.draw "comp").1 →
        (Board.step ⟨g, lastBuild⟩ ids (.group members label)).board.graph.buildAs name =
          g.buildAs name := by
  constructor
  · intro sink arrivals ids inert unused h
    obtain ⟨fresh, edges, rest, htakes, hadd, hedges⟩ := add_sink inert unused h ids
    exact ⟨_, _, rest, hadd, hedges, htakes.buildAs fresh name⟩
  · intro members label ids lastBuild unused
    unfold Board.step Board.edited
    simp only
    split
    · rename_i hgroup
      exact buildAs_group unused (congrArg Prod.fst hgroup) name
    · rfl

/-- A pipeline without data, in which two stages feed the optimizer. -/
def bare : Graph where
  name := "bare"
  nodes := [
    { id := "m", kind := "Model" }, { id := "o", kind := "Optimizer" }, { id := "l", kind := "Loss" }]
  edges := [{ source := "m", target := "o" }, { source := "l", target := "o" }]
  ids_nodup := by decide

theorem a_note_on_a_bare_pipeline :
    Node.Inert { id := "n", kind := "Note" } ∧ ¬ bare.Mentions "n" ∧
      (∀ arrival ∈ ([("m", ""), ("o", "e"), ("m", "")] : List (Text × Text)), arrival.1 ∈ bare.ids) ∧
      (∃ g₁ g₂ rest, bare.add { id := "n", kind := "Note" } = .ok ({ id := "n", kind := "Note" }, g₁) ∧
        g₁.addEdges .serial [("m", "n", ""), ("o", "n", "e"), ("m", "n", "")] = (.ok g₂, rest) ∧
        g₂.buildAs none = bare.buildAs none) ∧
      ¬ bare.Mentions (IdSupply.serial.draw "comp").1 ∧
      (Board.step ⟨bare, none⟩ .serial (.group ["o", "m"] "Head")).board.graph.buildAs none =
        bare.buildAs none ∧
      ∃ build, bare.buildAs none = .ok build ∧ build.ok = true := by
  have inert : Node.Inert { id := "n", kind := "Note" } :=
    Or.inr fun stage => by cases stage <;> decide
  have unused : ¬ bare.Mentions "n" := by decide
  have harrivals : ∀ arrival ∈ ([("m", ""), ("o", "e"), ("m", "")] : List (Text × Text)), arrival.1 ∈ bare.ids := by decide
  have hdrawn : ¬ bare.Mentions (IdSupply.serial.draw "comp").1 := by decide +kernel
  obtain ⟨hsink, hgroup⟩ := a_sink_without_work_changes_no_build bare none
  exact ⟨inert, unused, harrivals, hsink _ _ .serial inert unused harrivals, hdrawn,
    hgroup _ _ _ none hdrawn, exists_ok_build (by decide +kernel) (by decide +kernel)⟩

end Graph

end PipelineBoard
