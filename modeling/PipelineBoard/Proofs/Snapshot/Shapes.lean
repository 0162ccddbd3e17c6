-- The two shapes of nodes. A snapshot whose nodes have all their fields side by
-- side reads as the one that the canvas exports: same graph, same error, same
-- notices.
import PipelineBoard.Build
import PipelineBoard.Proofs.Lists
import PipelineBoard.Proofs.Snapshot.Passes

namespace PipelineBoard

/-! ## Fields that were filtered -/

theorem Fields.get?_filter (keep : Text → Bool) (fields : Fields) (key : Text) :
    Fields.get? (fields.filter fun field => keep field.1) key =
      if keep key then fields.get? key else none :=
  lookup_filter_key keep fields key

theorem Fields.get?_append (fields others : Fields) (key : Text) :
    Fields.get? (fields ++ others) key = (fields.get? key).or (others.get? key) :=
  List.lookup_append

namespace Snapshot

open Inspection

/-! ## The flat shape -/

/-- The fields of a flat node: the id and the position that stand beside
`data`, and the other fields with those of `data` over them. -/
def flatFields (node data : Fields) : Fields :=
  let outer : List Text := ["id", "position"]
  (node.filter fun field => outer.contains field.1) ++
    (node.overriddenBy data).filter fun field => !(outer.contains field.1 || field.1 == ("data" : Text))

/-- A node that has an object as its `data`, made flat. -/
def flatNode (value : Json) : Json :=
  match value with
  | .object node =>
    match Fields.get? node "data" with
    | some (.object data) => .object (flatFields node data)
    | _ => value
  | _ => value

/-- A snapshot with every node made flat. -/
def flattened (value : Json) : Json :=
  match value with
  | .object fields =>
    match Fields.get? fields "nodes" with
    | some (.list nodes) => .object (Fields.set fields "nodes" (.list (nodes.map flatNode)))
    | _ => value
  | _ => value

/-- What each field of a flat node is. -/
theorem get?_flatFields (node data : Fields) (key : Text) :
    (flatFields node data).get? key =
      if key = "id" ∨ key = "position" then node.get? key
      else if key = "data" then none
      else (node.overriddenBy data).get? key := by
  unfold flatFields
  simp only
  rw [Fields.get?_append, Fields.get?_filter (fun k => (["id", "position"] : List Text).contains k),
    Fields.get?_filter fun k =>
      !((["id", "position"] : List Text).contains k || k == ("data" : Text))]
  by_cases hkept : key = "id" ∨ key = "position"
  · rw [if_pos hkept, if_pos (by simpa using hkept), if_neg (by rcases hkept with rfl | rfl <;> simp),
      Option.or_none]
  · rw [if_neg hkept, if_neg (by simpa using hkept), Option.none_or]
    by_cases hdata : key = "data"
    · rw [if_pos hdata, if_neg (by simp [hdata])]
    · rw [if_neg hdata, if_pos (by simpa [hdata] using hkept)]

example : flatNode (.object [("id", .string "o"), ("type", .string "default"),
      ("data", .object [("type", .string "Loss"), ("id", .int 3), ("label", .string "L")])]) =
    .object [("id", .string "o"), ("type", .string "Loss"), ("label", .string "L")] := rfl

/-! ## Readings that agree -/

/-- Two nodes whose fields say the same to a reading. -/
structure SameFields (node other : Fields) : Prop where
  id : node.get? "id" = other.get? "id"
  position : node.get? "position" = other.get? "position"
  kind : (stageFields node).get? "type" = (stageFields other).get? "type"
  label : (stageFields node).get? "label" = (stageFields other).get? "label"
  summary : (stageFields node).get? "summary" = (stageFields other).get? "summary"
  params : (stageFields node).get? "params" = (stageFields other).get? "params"

theorem sameFields_flatFields {node data : Fields} (h : node.get? "data" = some (.object data)) :
    SameFields (flatFields node data) node := by
  -- A flat node has no `data`, so its own fields are those of the stage.
  have hflat : stageFields (flatFields node data) = flatFields node data := by
    unfold stageFields
    rw [get?_flatFields]
    rfl
  have hstage : stageFields node = node.overriddenBy data := by
    unfold stageFields
    rw [h]
  constructor <;> simp [hflat, hstage, get?_flatFields]

section

variable {fields others : Fields} {key : Text}

theorem readField_congr {spot : Spot} (h : fields.get? key = others.get? key) :
    readField spot fields key = readField spot others key := by
  unfold readField
  rw [h]

theorem readOptionalText_congr {spot : Spot} (h : fields.get? key = others.get? key) :
    readOptionalText spot fields key = readOptionalText spot others key := by
  unfold readOptionalText
  rw [h]

theorem readParams_congr {spot : Spot} (h : fields.get? "params" = others.get? "params") :
    readParams spot fields = readParams spot others := by
  unfold readParams
  rw [h]

theorem readPosition_congr {spot : Spot} (h : fields.get? "position" = others.get? "position") :
    readPosition spot fields = readPosition spot others := by
  unfold readPosition
  rw [h]

theorem readName_congr (h : fields.get? "projectName" = others.get? "projectName") :
    readName fields = readName others := by
  unfold readName
  rw [h]

end

theorem readNode_congr {node other : Fields} (h : SameFields node other) (strict : Bool)
    (index : Nat) (g : Graph) :
    readNode strict index g (.object node) = readNode strict index g (.object other) := by
  unfold readNode
  simp only [readObject_object, pure_bind]
  rw [readField_congr h.id, readField_congr h.kind, readOptionalText_congr h.label,
    readOptionalText_congr h.summary, readParams_congr h.params, readPosition_congr h.position]

theorem readNode_flatNode (strict : Bool) (index : Nat) (g : Graph) (value : Json) :
    readNode strict index g (flatNode value) = readNode strict index g value := by
  unfold flatNode
  split
  · split
    · rename_i hdata
      exact readNode_congr (sameFields_flatFields hdata) strict index g
    · rfl
  · rfl

theorem readNodes_flatNode (strict : Bool) (index : Nat) (g : Graph) (values : List Json) :
    readNodes strict index g (values.map flatNode) = readNodes strict index g values := by
  induction values generalizing index g with
  | nil => rfl
  | cons value rest ih =>
    rw [List.map_cons, readNodes, readNodes, readNode_flatNode]
    exact bind_congr fun g' => ih (index + 1) g'

/-! ## Whole snapshots -/

theorem read_flattened (strict : Bool) (value : Json) :
    read strict (flattened value) = read strict value := by
  unfold flattened
  split
  · rename_i fields
    split
    · rename_i nodes hnodes
      have hflat := Fields.get?_set_self fields "nodes" (.list (nodes.map flatNode))
      unfold read
      simp only [readObject_object, pure_bind, readField_of_get? hnodes, readField_of_get? hflat]
      rw [readField_congr (Fields.get?_set_ne fields _ (by decide)),
        readName_congr (Fields.get?_set_ne fields _ (by decide))]
      refine bind_congr fun edgesValue => ?_
      rw [readList_list, readList_list, pure_bind, pure_bind]
      refine bind_congr fun edges => bind_congr fun name => ?_
      rw [readNodes_flatNode]
    · rfl
  · rfl

/-- A snapshot with flat nodes is read with the same notices to the same graph
or the same error, in one pass or in two, and builds the same. -/
theorem flat_nodes_read_as_canvas_nodes (strict : Bool) (value : Json) :
    read strict (flattened value) = read strict value ∧
      validate strict (flattened value) = validate strict value ∧
      readInPasses strict (flattened value) = readInPasses strict value ∧
      ∀ name, (Graph.buildAs · name) <$> read strict (flattened value) =
        (Graph.buildAs · name) <$> read strict value := by
  have hread := read_flattened strict value
  refine ⟨hread, ?_, ?_, fun name => ?_⟩
  · rw [validate_eq, validate_eq, hread]
  · rw [readInPasses_eq, readInPasses_eq, hread]
  · rw [hread]

end Snapshot

end PipelineBoard
