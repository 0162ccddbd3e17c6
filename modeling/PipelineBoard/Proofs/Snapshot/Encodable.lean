-- Graphs with a form in UTF-8: what a snapshot without lone halves of surrogate pairs
-- holds has one, and so has the script of the graph.
import PipelineBoard.Proofs.Graph.Builds
import PipelineBoard.Proofs.Script.Encodable
import PipelineBoard.Proofs.Snapshot.Loading

namespace PipelineBoard

open Text

/-! ## Graphs that were read -/

namespace Snapshot

theorem allFieldsEncodable_stageFields {fields : Fields}
    (h : Json.allFieldsEncodable fields = true) :
    Json.allFieldsEncodable (stageFields fields) = true := by
  unfold stageFields
  split
  · rename_i data hdata
    have hobject := Json.isEncodable_of_get? h hdata
    rw [Json.isEncodable] at hobject
    exact Json.allFieldsEncodable_overriddenBy h hobject
  · exact h

theorem HoldsNode.isEncodable {fields : Fields} {node : Node} (h : HoldsNode fields node)
    (hfields : Json.allFieldsEncodable fields = true) : node.IsEncodable where
  label := by
    obtain ⟨_, hlabel⟩ | ⟨value, hvalue, hsaid⟩ := h.label
    · rw [hlabel]
      rfl
    · have htext := Json.isEncodable_of_get? (allFieldsEncodable_stageFields hfields) hvalue
      rwa [hsaid, Json.isEncodable] at htext
  params := by
    obtain ⟨_, hparams⟩ | ⟨value, hvalue, rfl, _⟩ := h.params
    · rw [hparams]
      rfl
    · have hobject := Json.isEncodable_of_get? (allFieldsEncodable_stageFields hfields) hvalue
      rwa [Json.isEncodable] at hobject

theorem HoldNodes.isEncodable {items : List Json} {nodes : List Node} (h : HoldNodes items nodes)
    (hitems : Json.allEncodable items = true) : ∀ node ∈ nodes, node.IsEncodable := by
  induction h with
  | nil => simp
  | cons hitem _ ih =>
    obtain ⟨fields, rfl, hnode⟩ := hitem
    rw [Json.allEncodable, Bool.and_eq_true, Json.isEncodable] at hitems
    exact List.forall_mem_cons.mpr ⟨hnode.isEncodable hitems.1, ih hitems.2⟩

end Snapshot

/-! ## Builds -/

namespace Graph

theorem IsEncodable.underName {g : Graph} (h : g.IsEncodable) {name : Option Text}
    (hname : ∀ given ∈ name, given.isEncodable = true) : (g.underName name).IsEncodable := by
  cases name with
  | none => exact h
  | some given => exact ⟨hname given rfl, h.nodes⟩

theorem IsEncodable.source {g : Graph} (h : g.IsEncodable) {build : Build}
    (hbuild : g.build = .ok build) : build.source.isEncodable = true := by
  by_cases hvalid : g.problems = []
  · rw [build_of_valid_eq hvalid] at hbuild
    split at hbuild
    · cases hbuild
      exact Script.isEncodable_draft h
    · cases hbuild
  · rw [build_of_invalid hvalid] at hbuild
    cases hbuild
    rfl

end Graph

end PipelineBoard
