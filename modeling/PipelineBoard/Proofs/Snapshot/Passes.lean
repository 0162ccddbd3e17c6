-- The two passes over a snapshot go by one grammar. The inspection lets a value
-- through just if it is a snapshot, and the decoding of what was let through
-- always ends in the graph that the value holds.
import PipelineBoard.Proofs.Snapshot.RoundTrip
import PipelineBoard.Snapshot.Passes

namespace PipelineBoard.Snapshot

open Inspection

/-! ## The inspection is a reading that forgets the graph -/

section

variable (strict : Bool) (index : Nat) (g : Graph)

theorem inspectNode_eq (value : Json) :
    inspectNode strict index g.ids value = Graph.ids <$> readNode strict index g value := by
  unfold inspectNode readNode
  simp only [map_bind]
  refine bind_congr fun node => bind_congr fun idValue => bind_congr fun id => ?_
  by_cases fresh : id ∉ g.ids
  · have hdemand : (!g.ids.contains id) = true := by simpa using fresh
    rw [dif_pos fresh, demand, if_pos hdemand, ← pure_eq, pure_bind]
    simp only [map_bind]
    refine bind_congr fun kindValue => bind_congr fun kind => bind_congr fun label =>
      bind_congr fun summary => bind_congr fun params => bind_congr fun position => ?_
    split
    · simp only [map_bind, map_pure, Graph.ids_push]
    · simp only [map_pure, Graph.ids_push]
  · have hdemand : ¬(!g.ids.contains id) = true := by simpa using fresh
    rw [dif_neg fresh, demand, if_neg hdemand]
    rfl

theorem inspectNodes_eq (values : List Json) :
    inspectNodes strict index g.ids values = Graph.ids <$> readNodes strict index g values := by
  induction values generalizing index g with
  | nil => rfl
  | cons value rest ih =>
    rw [inspectNodes, readNodes, inspectNode_eq, bind_map_left, map_bind]
    exact bind_congr fun g' => ih (index + 1) g'

theorem inspectEnd_eq (which : End) (value : Json) :
    inspectEnd strict index g.ids which value =
      (fun _ => ()) <$> readEnd strict index g which value := by
  unfold inspectEnd readEnd
  simp only [map_bind]
  refine bind_congr fun id => ?_
  rw [Graph.contains]
  split
  · simp only [map_bind, map_pure]
    exact (bind_pure _).symm
  · rw [map_pure]

theorem inspectEdge_eq (value : Json) :
    inspectEdge strict index g.ids value = (fun _ => ()) <$> readEdge strict index g value := by
  unfold inspectEdge readEdge
  simp only [map_bind, inspectEnd_eq, bind_map_left, bind_pure_comp, Functor.map_map]

theorem inspectEdges_eq (values : List Json) :
    inspectEdges strict index g.ids values = (fun _ => ()) <$> readEdges strict index g values := by
  induction values generalizing index with
  | nil => rfl
  | cons value rest ih =>
    rw [inspectEdges, readEdges, inspectEdge_eq, bind_map_left, map_bind]
    refine bind_congr fun edge => ?_
    simp only [ih (index + 1), bind_pure_comp, Functor.map_map]

end

/-- An inspection does what a reading does, and forgets the graph. -/
theorem inspect_eq (strict : Bool) (value : Json) : inspect strict value = validate strict value := by
  unfold validate read inspect
  simp only [bind_assoc]
  refine bind_congr fun fields => bind_congr fun nodesValue => bind_congr fun edgesValue =>
    bind_congr fun nodes => bind_congr fun edges => bind_congr fun name => ?_
  have hnodes := inspectNodes_eq strict 0 (Graph.empty name) nodes
  rw [show ([] : List Text) = (Graph.empty name).ids from rfl, hnodes, bind_map_left]
  refine bind_congr fun g => ?_
  simp only [inspectEdges_eq, map_pure, bind_pure_comp]

theorem validate_eq (strict : Bool) (value : Json) :
    validate strict value =
      ⟨(read strict value).notices, (read strict value).result.map fun _ => ()⟩ := by
  unfold validate
  rw [bind_eq]
  unfold andThen
  rcases (read strict value).result with e | g
  · rfl
  · exact congrArg (Inspection.mk · _) (List.append_nil _)

theorem inspect_ok_iff {value : Json} :
    (inspect false value).result = .ok () ↔ IsSnapshot value := by
  rw [inspect_eq, isSnapshot_iff]
  constructor
  · intro h
    obtain ⟨g, hread, _⟩ := of_result_bind h
    exact ⟨g, read_ok hread⟩
  · rintro ⟨g, hholds⟩
    exact result_bind_of_ok g (by rw [read_lax_of_holds hholds])

/-! ## What is held is decoded -/

section

variable {fields : Fields} {key : Text}

theorem decodeText_of_get? {s : Text} (h : fields.get? key = some (.string s)) :
    decodeText fields key = .ok s := by
  unfold decodeText
  rw [h]

theorem decodeList_of_get? {items : List Json} (h : fields.get? key = some (.list items)) :
    decodeList fields key = .ok items := by
  unfold decodeList
  rw [h]

/-- A text that is absent, null or empty gives way to the default. -/
theorem decodeTextOr_of_holdsOr {default what : Text} {Says : Json → Text → Prop}
    (hsaid : ∀ value what, Says value what →
      ∃ s, value = .string s ∧ what = if s.isEmpty then default else s)
    (h : HoldsOr default Says fields key what) : decodeTextOr default fields key = .ok what := by
  unfold decodeTextOr
  obtain ⟨habsent | habsent, rfl⟩ | ⟨value, hvalue, hwhat⟩ := h
  · rw [habsent]
  · rw [habsent]
    rfl
  · obtain ⟨s, rfl, rfl⟩ := hsaid value what hwhat
    rw [hvalue]
    by_cases hempty : s.isEmpty = true
    · rw [if_pos hempty]
      exact if_pos hempty
    · rw [if_neg hempty]
      exact if_neg hempty

theorem decodeTextOr_of_saysText {s : Text} (h : HoldsOr ("" : Text) SaysText fields key s) :
    decodeTextOr "" fields key = .ok s := by
  refine decodeTextOr_of_holdsOr (fun value s hsaid => ⟨s, hsaid, ?_⟩) h
  split
  · rename_i hempty
    exact Text.isEmpty_iff.mp hempty
  · rfl

theorem decodeParams_of_holdsOr {params : Fields} (h : HoldsOr [] SaysParams fields "params" params) :
    decodeParams fields = .ok params := by
  unfold decodeParams
  obtain ⟨habsent | habsent, rfl⟩ | ⟨value, hvalue, rfl, _⟩ := h
  · rw [habsent]
  · rw [habsent]
    rfl
  · rw [hvalue]
    cases params <;> rfl

theorem decodePosition_of_holdsOr {position : Fields}
    (h : HoldsOr origin SaysPosition fields "position" position) :
    decodePosition fields = position := by
  unfold decodePosition
  obtain ⟨habsent | habsent, rfl⟩ | ⟨value, hvalue, given, rfl, rfl⟩ := h
  · rw [habsent]
  · rw [habsent]
  · rw [hvalue]

end

theorem decodeNode_of_holds {fields : Fields} {node : Node} (h : HoldsNode fields node) :
    decodeNode (.object fields) = .ok node := by
  unfold decodeNode
  simp only
  rw [decodeText_of_get? h.id, decodeText_of_get? h.kind, decodeTextOr_of_saysText h.label,
    decodeParams_of_holdsOr h.params, decodeTextOr_of_saysText h.summary,
    decodePosition_of_holdsOr h.position]
  rfl

theorem decodeNodes_of_hold {values : List Json} {nodes : List Node} (h : HoldNodes values nodes)
    {g : Graph} (distinct : ((g.nodes ++ nodes).map Node.id).Nodup) :
    decodeNodes g values = .ok (g.pushAll nodes distinct) := by
  induction h generalizing g with
  | nil =>
    rw [Graph.pushAll_nil]
    rfl
  | cons hitem _ ih =>
    obtain ⟨fields, rfl, hnode⟩ := hitem
    have fresh := Graph.fresh_of_distinct distinct
    rw [Graph.pushAll_cons, ← ih (Graph.distinct_push distinct), decodeNodes,
      decodeNode_of_holds hnode]
    exact dif_pos fresh

theorem decodeEdge_of_holds {fields : Fields} {edge : Edge} (h : HoldsEdge fields edge) :
    decodeEdge (.object fields) = .ok edge := by
  unfold decodeEdge
  simp only
  rw [decodeText_of_get? h.source, decodeText_of_get? h.target, h.id]
  rfl

theorem decodeEdges_of_hold {values : List Json} {edges : List Edge} (h : HoldEdges values edges) :
    values.mapM decodeEdge = .ok edges := by
  induction h with
  | nil => rfl
  | cons hitem _ ih =>
    obtain ⟨fields, rfl, hedge⟩ := hitem
    rw [List.mapM_cons, decodeEdge_of_holds hedge, ih]
    rfl

/-- The graph that a value holds is decoded from it. -/
theorem decode_of_holds {value : Json} {g : Graph} (h : Holds value g) : decode value = .ok g := by
  obtain ⟨fields, nodes, edges, rfl, hnodes, hedges, hname, hgnodes, hgedges⟩ := h
  have hname' : decodeTextOr defaultName fields "projectName" = .ok g.name :=
    decodeTextOr_of_holdsOr (fun _ _ hsaid => hsaid) hname
  have hdecode := decodeNodes_of_hold hgnodes (g := Graph.empty g.name) g.ids_nodup
  unfold decode
  simp only
  rw [hname', decodeList_of_get? hnodes, decodeList_of_get? hedges]
  simp only [bind, Except.bind, hdecode, decodeEdges_of_hold hgedges]
  rfl

/-! ## Both passes -/

/-- The two passes do what a reading does. -/
theorem readInPasses_eq (strict : Bool) (value : Json) :
    readInPasses strict value =
      ((read strict value).notices, (read strict value).result.mapError .schema) := by
  unfold readInPasses
  rw [inspect_eq, validate_eq]
  rcases hread : (read strict value).result with e | g
  · rfl
  · simp only [Except.map, decode_of_holds (read_ok hread)]
    rfl

theorem readInPasses_ok_iff {value : Json} {g : Graph} :
    (readInPasses false value).2 = .ok g ↔ Holds value g := by
  rw [readInPasses_eq]
  constructor
  · intro h
    rcases hread : (read false value).result with e | g'
    · simp [hread, Except.mapError] at h
    · simp only [hread, Except.mapError, Except.ok.injEq] at h
      exact h ▸ read_ok hread
  · intro h
    simp only [read_lax_of_holds h]
    rfl

theorem schema_of_readInPasses {strict : Bool} {value : Json} {fault : LoadFault}
    (h : (readInPasses strict value).2 = .error fault) : ∃ e, fault = .schema e := by
  rw [readInPasses_eq] at h
  rcases hread : (read strict value).result with e | g
  · simp only [hread, Except.mapError, Except.error.injEq] at h
    exact ⟨e, h.symm⟩
  · simp [hread, Except.mapError] at h

/-- One grammar decides both passes. The inspection lets a value through, and
the passes end in a graph, just if the value is a snapshot; the graph is the one
that the value holds. What ends in no graph was refused by the inspection, and
never by the decoding. -/
theorem both_passes_go_by_one_grammar (value : Json) :
    ((inspect false value).result = .ok () ↔ IsSnapshot value) ∧
      ((∃ g, (readInPasses false value).2 = .ok g) ↔ IsSnapshot value) ∧
      (∀ fault, (readInPasses false value).2 = .error fault → ∃ e, fault = .schema e) ∧
      (∀ g, (readInPasses false value).2 = .ok g →
        Holds value g ∧ ∀ node ∈ g.nodes, Json.allFieldsPlain node.params = true) ∧
      ∀ strict, inspect strict value = validate strict value ∧
        readInPasses strict value =
          ((read strict value).notices, (read strict value).result.mapError .schema) := by
  refine ⟨inspect_ok_iff, ?_, fun _ => schema_of_readInPasses, ?_, fun strict => ?_⟩
  · rw [isSnapshot_iff]
    exact exists_congr fun g => readInPasses_ok_iff
  · intro g h
    have hholds := readInPasses_ok_iff.mp h
    exact ⟨hholds, fun node hmem => (hholds.storable.nodes node hmem).plain⟩
  · exact ⟨inspect_eq strict value, readInPasses_eq strict value⟩

/-- A node as the canvas exports it, whose `data` overrides text for params and
has an id and a position of its own. -/
def canvasExport : Json := .object [
  ("nodes", .list [.object [
    ("id", .string "m"), ("type", .string "default"), ("params", .string "none"),
    ("data", .object [
      ("id", .int 7), ("type", .string "Model"), ("label", .null), ("position", .string "left"),
      ("params", .object [("hidden", .int 8)])])]]),
  ("edges", .list [.object [("source", .string "m"), ("target", .string "ghost")]]),
  ("projectName", .string "")]

/-- The graph of that export. -/
def exported : Graph :=
  ⟨"project", [{ id := "m", kind := "Model", params := [("hidden", .int 8)] }], [⟨"m", "ghost", .null⟩],
    by simp⟩

/-- A node twice over. -/
def twiceTheSame : Json := .object [
  ("nodes", .list [
    .object [("id", .string "m"), ("type", .string "Model")],
    .object [("id", .string "m"), ("type", .string "Loss")]]),
  ("edges", .list [])]

theorem the_grammar_of_a_canvas_export :
    IsSnapshot canvasExport ∧ Holds canvasExport exported ∧ ¬ IsSnapshot twiceTheSame ∧
      ∃ e, (readInPasses false twiceTheSame).2 = .error (.schema e) := by
  obtain ⟨_, hsnapshot, _, hholds, _⟩ := both_passes_go_by_one_grammar canvasExport
  obtain ⟨_, hnone, hschema, _⟩ := both_passes_go_by_one_grammar twiceTheSame
  have hexport : (readInPasses false canvasExport).2 = .ok exported := rfl
  have hrefused : (readInPasses false twiceTheSame).2 =
      .error (.schema (.duplicateId (.node 1) "m")) := rfl
  refine ⟨hsnapshot.mp ⟨_, hexport⟩, (hholds _ hexport).1, ?_, ?_⟩
  · intro h
    obtain ⟨g, hg⟩ := hnone.mpr h
    rw [hrefused] at hg
    cases hg
  · obtain ⟨e, he⟩ := hschema _ hrefused
    exact ⟨e, he ▸ hrefused⟩

end PipelineBoard.Snapshot
