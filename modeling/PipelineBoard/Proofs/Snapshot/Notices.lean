-- The notices of a snapshot. There are none just if the graph that it holds is
-- well formed, and then a strict inspection lets it through too.
import PipelineBoard.Proofs.Graph.WellFormed
import PipelineBoard.Proofs.Snapshot.RoundTrip

namespace PipelineBoard.Snapshot

open Inspection

theorem nodeNotices_eq_nil_iff {index : Nat} {node : Node} :
    nodeNotices index node = [] ↔ ∃ stage, node.stage? = some stage := by
  unfold nodeNotices
  cases node.stage? <;> simp

theorem endNotices_eq_nil_iff {g : Graph} {index : Nat} {which : End} {id : Text} :
    endNotices g index which id = [] ↔ id ∈ g.ids := by
  unfold endNotices
  by_cases hid : id ∈ g.ids <;> simp [Graph.contains, hid]

theorem edgeNotices_eq_nil_iff {g : Graph} {index : Nat} {edge : Edge} :
    edgeNotices g index edge = [] ↔ edge.source ∈ g.ids ∧ edge.target ∈ g.ids := by
  unfold edgeNotices
  rw [List.append_eq_nil_iff, endNotices_eq_nil_iff, endNotices_eq_nil_iff]

/-- What holds of the entries of a list, at whatever index. -/
theorem forall_mem_zipIdx_iff {α : Type} {P : α → Prop} (entries : List α) :
    (∀ place ∈ entries.zipIdx, P place.1) ↔ ∀ entry ∈ entries, P entry := by
  constructor
  · intro h entry hentry
    rw [← List.zipIdx_map_fst 0 entries] at hentry
    obtain ⟨place, hplace, rfl⟩ := List.mem_map.mp hentry
    exact h place hplace
  · intro h place hplace
    exact h place.1 (List.fst_mem_of_mem_zipIdx hplace)

/-- A graph gives no notice just if every node does the work of a stage and
every edge joins two nodes. -/
theorem notices_eq_nil_iff {g : Graph} :
    notices g = [] ↔ (∀ node ∈ g.nodes, ∃ stage, node.stage? = some stage) ∧
      ∀ edge ∈ g.edges, edge.source ∈ g.ids ∧ edge.target ∈ g.ids := by
  unfold notices nodesNotices edgesNotices
  simp only [List.append_eq_nil_iff, List.flatMap_eq_nil_iff, nodeNotices_eq_nil_iff,
    edgeNotices_eq_nil_iff]
  rw [forall_mem_zipIdx_iff (P := fun node : Node => ∃ stage, node.stage? = some stage),
    forall_mem_zipIdx_iff (P := fun edge : Edge => edge.source ∈ g.ids ∧ edge.target ∈ g.ids)]

/-- What is read without a notice is well formed, strictly or not. -/
theorem wellFormed_of_read {strict : Bool} {value : Json} {g : Graph}
    (h : read strict value = found g) : g.WellFormed := by
  have hholds : Holds value g := read_ok (congrArg Inspection.result h)
  have hquiet : notices g = [] := by
    rw [read_of_holds hholds] at h
    cases strict with
    | false =>
      rw [reportAll_lax] at h
      simpa [bind_eq, andThen, pure_eq, found] using h
    | true =>
      obtain ⟨_, hreported, _⟩ := of_result_bind (congrArg Inspection.result h)
      exact result_reportAll_strict_iff.mp hreported
  obtain ⟨hknown, hjoined⟩ := notices_eq_nil_iff.mp hquiet
  exact ⟨hknown, hjoined, hholds.storable.nodes⟩

/-- A strict inspection lets the snapshot of a well-formed graph through. -/
theorem validate_toJson_of_wellFormed {strict : Bool} {g : Graph} (h : g.WellFormed) :
    validate strict g.toJson = found () := by
  have hrenamed := h.rename (nameOrDefault g.name)
  have hquiet : notices (g.rename (nameOrDefault g.name)) = [] :=
    notices_eq_nil_iff.mpr ⟨hrenamed.known, hrenamed.joined⟩
  unfold validate
  rw [read_of_holds (holds_toJson_rename h.storable), hquiet]
  rfl

end PipelineBoard.Snapshot
