-- Reading and the grammar. A graph that was read is the one that the value
-- holds, and to read a value that holds a graph is to report the notices of the
-- graph and find it.
import PipelineBoard.Proofs.Snapshot.Grammar
import PipelineBoard.Proofs.Snapshot.Inspections

namespace PipelineBoard

/-! ## Several nodes at once -/

namespace Graph

variable {g : Graph} {node : Node} {nodes : List Node}

/-- The graph with more nodes at the end, under ids that no node has. -/
def pushAll (g : Graph) (nodes : List Node)
    (distinct : ((g.nodes ++ nodes).map Node.id).Nodup) : Graph :=
  ⟨g.name, g.nodes ++ nodes, g.edges, distinct⟩

theorem pushAll_nil (distinct : ((g.nodes ++ []).map Node.id).Nodup) : g.pushAll [] distinct = g := by
  simp only [pushAll, List.append_nil]

theorem fresh_of_distinct (distinct : ((g.nodes ++ node :: nodes).map Node.id).Nodup) :
    node.id ∉ g.ids := by
  rw [List.map_append, List.nodup_append] at distinct
  intro hmem
  exact distinct.2.2 node.id hmem node.id (by simp) rfl

theorem distinct_push (distinct : ((g.nodes ++ node :: nodes).map Node.id).Nodup) :
    (((g.push node (fresh_of_distinct distinct)).nodes ++ nodes).map Node.id).Nodup := by
  simpa [push] using distinct

theorem pushAll_cons (distinct : ((g.nodes ++ node :: nodes).map Node.id).Nodup) :
    g.pushAll (node :: nodes) distinct =
      (g.push node (fresh_of_distinct distinct)).pushAll nodes (distinct_push distinct) := by
  have happend : g.nodes ++ node :: nodes = g.nodes ++ [node] ++ nodes := by simp
  simp only [pushAll, push, happend]

end Graph

namespace Snapshot

open Inspection

/-! ## Reading fields -/

section

variable {α : Type} {default what : α} {Says : Json → α → Prop} {fields : Fields} {key : Text}

theorem holdsOr_of_absent (h : Absent fields key) (hnull : ∀ what, ¬ Says .null what) :
    HoldsOr default Says fields key what ↔ what = default := by
  constructor
  · rintro (⟨_, hwhat⟩ | ⟨value, hvalue, hsaid⟩)
    · exact hwhat
    · rcases h with h | h
      · rw [h] at hvalue
        cases hvalue
      · rw [h, Option.some.injEq] at hvalue
        exact absurd (hvalue ▸ hsaid) (hnull what)
  · intro hwhat
    exact Or.inl ⟨h, hwhat⟩

theorem holdsOr_of_some {value : Json} (h : fields.get? key = some value) (hnull : value ≠ .null) :
    HoldsOr default Says fields key what ↔ Says value what := by
  constructor
  · rintro (⟨habsent | habsent, _⟩ | ⟨other, hother, hsaid⟩)
    · rw [h] at habsent
      cases habsent
    · rw [h, Option.some.injEq] at habsent
      exact absurd habsent hnull
    · rw [h, Option.some.injEq] at hother
      exact hother ▸ hsaid
  · intro hsaid
    exact Or.inr ⟨value, h, hsaid⟩

end

variable {spot : Spot} {fields : Fields} {key : Text}

theorem readObject_iff {error : SchemaError} {value : Json} :
    (readObject error value).result = .ok fields ↔ value = .object fields := by
  unfold readObject
  rw [result_expect_iff]
  cases value <;> simp [Json.fields?]

theorem readField_iff {value : Json} :
    (readField spot fields key).result = .ok value ↔ fields.get? key = some value :=
  result_expect_iff

theorem readText_iff {value : Json} {s : Text} :
    (readText spot key value).result = .ok s ↔ value = .string s := by
  cases value <;> simp [readText, found, fail]

theorem readList_iff {value : Json} {items : List Json} :
    (readList key value).result = .ok items ↔ value = .list items := by
  cases value <;> simp [readList, found, fail]

theorem readOptionalText_iff {s : Text} :
    (readOptionalText spot fields key).result = .ok s ↔ HoldsOr ("" : Text) SaysText fields key s := by
  unfold readOptionalText
  split
  · rename_i hnone
    rw [result_found_iff, holdsOr_of_absent (Or.inl hnone) (by simp [SaysText])]
  · rename_i hnull
    rw [result_found_iff, holdsOr_of_absent (Or.inr hnull) (by simp [SaysText])]
  · rename_i value hnull hvalue
    rw [readText_iff, holdsOr_of_some hvalue hnull]
    rfl

theorem readParams_iff {params : Fields} :
    (readParams spot fields).result = .ok params ↔
      HoldsOr [] SaysParams fields "params" params := by
  unfold readParams
  split
  · rename_i hnone
    rw [result_found_iff, holdsOr_of_absent (Or.inl hnone) (by simp [SaysParams])]
  · rename_i hnull
    rw [result_found_iff, holdsOr_of_absent (Or.inr hnull) (by simp [SaysParams])]
  · rename_i given hgiven
    rw [holdsOr_of_some hgiven (by simp)]
    constructor
    · intro h
      obtain ⟨_, hplain, hparams⟩ := of_result_bind h
      rw [pure_eq, result_found_iff] at hparams
      exact ⟨by rw [hparams], hparams ▸ result_demand_iff.mp hplain⟩
    · rintro ⟨hsame, hplain⟩
      rw [Json.object.injEq] at hsame
      subst hsame
      exact result_bind_of_ok () (result_demand_iff.mpr hplain)
  · rename_i value hnull hobject hvalue
    rw [holdsOr_of_some hvalue hnull]
    constructor
    · intro h
      exact absurd h (result_fail_ne _ _)
    · rintro ⟨hsame, _⟩
      exact absurd hsame (hobject params)

theorem readPosition_iff {position : Fields} :
    (readPosition spot fields).result = .ok position ↔
      HoldsOr origin SaysPosition fields "position" position := by
  unfold readPosition
  split
  · rename_i hnone
    rw [result_found_iff, holdsOr_of_absent (Or.inl hnone) (by simp [SaysPosition])]
  · rename_i hnull
    rw [result_found_iff, holdsOr_of_absent (Or.inr hnull) (by simp [SaysPosition])]
  · rename_i given hgiven
    rw [result_found_iff, holdsOr_of_some hgiven (by simp)]
    simp [SaysPosition]
  · rename_i value hnull hobject hvalue
    rw [holdsOr_of_some hvalue hnull]
    constructor
    · intro h
      exact absurd h (result_fail_ne _ _)
    · rintro ⟨given, hsame, _⟩
      exact absurd hsame (hobject given)

theorem readName_iff {name : Text} :
    (readName fields).result = .ok name ↔
      HoldsOr defaultName SaysName fields "projectName" name := by
  unfold readName
  split
  · rename_i hnone
    rw [result_found_iff, holdsOr_of_absent (Or.inl hnone) (by simp [SaysName])]
  · rename_i hnull
    rw [result_found_iff, holdsOr_of_absent (Or.inr hnull) (by simp [SaysName])]
  · rename_i given hgiven
    rw [result_found_iff, holdsOr_of_some hgiven (by simp)]
    simp [SaysName]
  · rename_i value hnull htext hvalue
    rw [holdsOr_of_some hvalue hnull]
    constructor
    · intro h
      exact absurd h (result_fail_ne _ _)
    · rintro ⟨given, hsame, _⟩
      exact absurd hsame (htext given)

/-! ## What was read is held -/

section

variable {strict : Bool} {index : Nat} {g : Graph}

theorem readNode_ok {g' : Graph} {value : Json}
    (h : (readNode strict index g value).result = .ok g') :
    ∃ (fields : Fields) (node : Node) (fresh : node.id ∉ g.ids),
      value = .object fields ∧ HoldsNode fields node ∧ g' = g.push node fresh := by
  unfold readNode at h
  obtain ⟨fields, hfields, h⟩ := of_result_bind h
  obtain ⟨idValue, hidField, h⟩ := of_result_bind h
  obtain ⟨id, hid, h⟩ := of_result_bind h
  split at h
  · rename_i fresh
    obtain ⟨kindValue, hkindField, h⟩ := of_result_bind h
    obtain ⟨kind, hkind, h⟩ := of_result_bind h
    obtain ⟨label, hlabel, h⟩ := of_result_bind h
    obtain ⟨summary, hsummary, h⟩ := of_result_bind h
    obtain ⟨params, hparams, h⟩ := of_result_bind h
    obtain ⟨position, hposition, h⟩ := of_result_bind h
    have hpush : g' = g.push { id, kind, label, params, summary, position } fresh := by
      split at h
      · obtain ⟨_, _, h⟩ := of_result_bind h
        exact result_found_iff.mp h
      · exact result_found_iff.mp h
    rw [readText_iff] at hid hkind
    rw [hid, readField_iff] at hidField
    rw [hkind, readField_iff] at hkindField
    exact ⟨fields, _, fresh, readObject_iff.mp hfields,
      ⟨hidField, hkindField, readOptionalText_iff.mp hlabel, readOptionalText_iff.mp hsummary,
        readParams_iff.mp hparams, readPosition_iff.mp hposition⟩, hpush⟩
  · cases h

theorem readNodes_ok {g' : Graph} {values : List Json}
    (h : (readNodes strict index g values).result = .ok g') :
    ∃ nodes, HoldNodes values nodes ∧ g'.name = g.name ∧ g'.nodes = g.nodes ++ nodes := by
  induction values generalizing index g with
  | nil =>
    cases h
    exact ⟨[], .nil, rfl, (List.append_nil _).symm⟩
  | cons value rest ih =>
    obtain ⟨_, hnode, hrest⟩ := of_result_bind h
    obtain ⟨fields, node, fresh, hfields, hholds, rfl⟩ := readNode_ok hnode
    obtain ⟨nodes, hnodes, hname, happend⟩ := ih hrest
    refine ⟨node :: nodes, .cons ⟨fields, hfields, hholds⟩ hnodes, hname, ?_⟩
    rw [happend]
    simp [Graph.push]

theorem readEnd_ok {which : End} {value : Json} {id : Text}
    (h : (readEnd strict index g which value).result = .ok id) : value = .string id := by
  unfold readEnd at h
  obtain ⟨text, htext, h⟩ := of_result_bind h
  have hid : id = text := by
    split at h
    · obtain ⟨_, _, h⟩ := of_result_bind h
      exact result_found_iff.mp h
    · exact result_found_iff.mp h
  rw [hid]
  exact readText_iff.mp htext

theorem readEdge_ok {value : Json} {edge : Edge}
    (h : (readEdge strict index g value).result = .ok edge) :
    ∃ fields, value = .object fields ∧ HoldsEdge fields edge := by
  unfold readEdge at h
  obtain ⟨fields, hfields, h⟩ := of_result_bind h
  obtain ⟨_, hsourceField, h⟩ := of_result_bind h
  obtain ⟨_, htargetField, h⟩ := of_result_bind h
  obtain ⟨source, hsource, h⟩ := of_result_bind h
  obtain ⟨target, htarget, h⟩ := of_result_bind h
  rw [readEnd_ok hsource, readField_iff] at hsourceField
  rw [readEnd_ok htarget, readField_iff] at htargetField
  rw [result_found_iff.mp h]
  exact ⟨fields, readObject_iff.mp hfields, hsourceField, htargetField, rfl⟩

theorem readEdges_ok {values : List Json} {edges : List Edge}
    (h : (readEdges strict index g values).result = .ok edges) : HoldEdges values edges := by
  induction values generalizing index edges with
  | nil =>
    cases h
    exact .nil
  | cons value rest ih =>
    obtain ⟨edge, hedge, h⟩ := of_result_bind h
    obtain ⟨others, hothers, h⟩ := of_result_bind h
    rw [result_found_iff.mp h]
    exact .cons (readEdge_ok hedge) (ih hothers)

end

/-- A graph that was read is held by the value. -/
theorem read_ok {strict : Bool} {value : Json} {g : Graph}
    (h : (read strict value).result = .ok g) : Holds value g := by
  obtain ⟨fields, hfields, h⟩ := of_result_bind h
  obtain ⟨nodesValue, hnodesField, h⟩ := of_result_bind h
  obtain ⟨edgesValue, hedgesField, h⟩ := of_result_bind h
  obtain ⟨nodes, hnodes, h⟩ := of_result_bind h
  obtain ⟨edges, hedges, h⟩ := of_result_bind h
  obtain ⟨name, hname, h⟩ := of_result_bind h
  obtain ⟨g', hread, h⟩ := of_result_bind h
  obtain ⟨links, hlinks, h⟩ := of_result_bind h
  rw [readList_iff.mp hnodes, readField_iff] at hnodesField
  rw [readList_iff.mp hedges, readField_iff] at hedgesField
  obtain ⟨gnodes, hgnodes, hgname, happend⟩ := readNodes_ok hread
  have hname : HoldsOr defaultName SaysName fields "projectName" g'.name := by
    rw [hgname]
    exact readName_iff.mp hname
  have hgnodes : HoldNodes nodes g'.nodes := by
    rw [happend]
    exact hgnodes
  rw [result_found_iff.mp h]
  exact ⟨fields, nodes, edges, readObject_iff.mp hfields, hnodesField, hedgesField, hname, hgnodes,
    readEdges_ok hlinks⟩

/-! ## What is held is read -/

/-- The notice of a node at an index, if its kind is the name of no stage. -/
def nodeNotices (index : Nat) (node : Node) : List Notice :=
  if node.stage?.isNone then [.unknownKind index node.kind] else []

/-- The notice of one end of an edge at an index, if the graph has no such
node. -/
def endNotices (g : Graph) (index : Nat) (which : End) (id : Text) : List Notice :=
  if !g.contains id then [.danglingEnd index which id] else []

def edgeNotices (g : Graph) (index : Nat) (edge : Edge) : List Notice :=
  endNotices g index .source edge.source ++ endNotices g index .target edge.target

def nodesNotices (index : Nat) (nodes : List Node) : List Notice :=
  (nodes.zipIdx index).flatMap fun place => nodeNotices place.2 place.1

def edgesNotices (g : Graph) (index : Nat) (edges : List Edge) : List Notice :=
  (edges.zipIdx index).flatMap fun place => edgeNotices g place.2 place.1

/-- Every notice of a graph: first those of the nodes, then those of the
edges. -/
def notices (g : Graph) : List Notice := nodesNotices 0 g.nodes ++ edgesNotices g 0 g.edges

section

variable {spot : Spot} {fields : Fields} {key : Text}

theorem readObject_object (error : SchemaError) (fields : Fields) :
    readObject error (.object fields) = pure fields := rfl

theorem readText_string (s : Text) : readText spot key (.string s) = pure s := rfl

theorem readList_list (field : Text) (items : List Json) :
    readList field (.list items) = pure items := rfl

theorem readField_of_get? {value : Json} (h : fields.get? key = some value) :
    readField spot fields key = pure value := by
  unfold readField
  rw [h]
  rfl

theorem readOptionalText_of_holdsOr {s : Text} (h : HoldsOr ("" : Text) SaysText fields key s) :
    readOptionalText spot fields key = pure s := by
  refine eq_found ?_ (readOptionalText_iff.mpr h)
  unfold readOptionalText
  split
  · rfl
  · rfl
  · rename_i value _ _
    cases value <;> rfl

theorem readParams_of_holdsOr {params : Fields} (h : HoldsOr [] SaysParams fields "params" params) :
    readParams spot fields = pure params := by
  refine eq_found ?_ (readParams_iff.mpr h)
  unfold readParams demand
  split
  · rfl
  · rfl
  · split <;> rfl
  · rfl

theorem readPosition_of_holdsOr {position : Fields}
    (h : HoldsOr origin SaysPosition fields "position" position) :
    readPosition spot fields = pure position := by
  refine eq_found ?_ (readPosition_iff.mpr h)
  unfold readPosition
  split <;> rfl

theorem readName_of_holdsOr {name : Text}
    (h : HoldsOr defaultName SaysName fields "projectName" name) : readName fields = pure name := by
  refine eq_found ?_ (readName_iff.mpr h)
  unfold readName
  split <;> rfl

end

section

variable {strict : Bool}

/-- A node that is held is read with its notice. -/
theorem readNode_of_holds {fields : Fields} {node : Node} (h : HoldsNode fields node) (index : Nat)
    {g : Graph} (fresh : node.id ∉ g.ids) :
    readNode strict index g (.object fields) = (do
      reportAll strict (nodeNotices index node)
      return g.push node fresh) := by
  unfold readNode
  simp only [readObject_object, readField_of_get? h.id, readText_string, pure_bind]
  rw [dif_pos fresh]
  simp only [readField_of_get? h.kind, readText_string, readOptionalText_of_holdsOr h.label,
    readOptionalText_of_holdsOr h.summary, readParams_of_holdsOr h.params,
    readPosition_of_holdsOr h.position, pure_bind]
  rw [nodeNotices, reportAll_if, Node.stage?]
  split
  · rfl
  · rw [pure_bind]

theorem readNodes_of_hold {values : List Json} {nodes : List Node} (h : HoldNodes values nodes)
    (index : Nat) {g : Graph} (distinct : ((g.nodes ++ nodes).map Node.id).Nodup) :
    readNodes strict index g values = (do
      reportAll strict (nodesNotices index nodes)
      return g.pushAll nodes distinct) := by
  induction h generalizing index g with
  | nil =>
    rw [Graph.pushAll_nil]
    exact (pure_bind () fun _ => found g).symm
  | cons hitem _ ih =>
    obtain ⟨fields, rfl, hnode⟩ := hitem
    have fresh := Graph.fresh_of_distinct distinct
    rw [readNodes, readNode_of_holds hnode index fresh, bind_assoc]
    simp only [pure_bind, ih (index + 1) (Graph.distinct_push distinct), nodesNotices,
      List.zipIdx_cons, List.flatMap_cons, reportAll_append, bind_assoc, Graph.pushAll_cons]

theorem readEnd_string (index : Nat) (g : Graph) (which : End) (id : Text) :
    readEnd strict index g which (.string id) = (do
      reportAll strict (endNotices g index which id)
      return id) := by
  unfold readEnd
  rw [readText_string, pure_bind, endNotices, reportAll_if]
  split
  · rfl
  · rw [pure_bind]

theorem readEdge_of_holds {fields : Fields} {edge : Edge} (h : HoldsEdge fields edge) (index : Nat)
    (g : Graph) :
    readEdge strict index g (.object fields) = (do
      reportAll strict (edgeNotices g index edge)
      return edge) := by
  unfold readEdge
  simp only [readObject_object, readField_of_get? h.source, readField_of_get? h.target, pure_bind,
    readEnd_string, edgeNotices, reportAll_append, bind_assoc, h.id]

theorem readEdges_of_hold {values : List Json} {edges : List Edge} (h : HoldEdges values edges)
    (index : Nat) (g : Graph) :
    readEdges strict index g values = (do
      reportAll strict (edgesNotices g index edges)
      return edges) := by
  induction h generalizing index with
  | nil => exact (pure_bind () fun _ => found []).symm
  | cons hitem _ ih =>
    obtain ⟨fields, rfl, hedge⟩ := hitem
    rw [readEdges, readEdge_of_holds hedge, bind_assoc]
    simp only [pure_bind, ih (index + 1), edgesNotices, List.zipIdx_cons, List.flatMap_cons,
      reportAll_append, bind_assoc]

/-- The graph that a value holds is read out of it, with its notices. -/
theorem read_of_holds {value : Json} {g : Graph} (h : Holds value g) :
    read strict value = (do
      reportAll strict (notices g)
      return g) := by
  obtain ⟨fields, nodes, edges, rfl, hnodes, hedges, hname, hgnodes, hgedges⟩ := h
  have hread : readNodes strict 0 (Graph.empty g.name) nodes = (do
      reportAll strict (nodesNotices 0 g.nodes)
      return (Graph.empty g.name).pushAll g.nodes g.ids_nodup) :=
    readNodes_of_hold (g := Graph.empty g.name) hgnodes 0 g.ids_nodup
  unfold read
  simp only [readObject_object, readField_of_get? hnodes, readField_of_get? hedges, readList_list,
    readName_of_holdsOr hname, pure_bind, hread, bind_assoc, readEdges_of_hold hgedges]
  rw [notices, reportAll_append, bind_assoc]
  rfl

theorem read_lax_of_holds {value : Json} {g : Graph} (h : Holds value g) :
    read false value = ⟨notices g, .ok g⟩ := by
  rw [read_of_holds h, reportAll_lax]
  simp [bind_eq, andThen, pure_eq, found]

end

end Snapshot

end PipelineBoard
