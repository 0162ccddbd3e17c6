-- What an edit makes of a graph. An edit that succeeds adds a node, puts a node
-- in the place of another, takes one out with its edges, or adds or takes out
-- one edge. What these five keep, every edit keeps.
import PipelineBoard.Proofs.Graph.Additions

namespace PipelineBoard

/-! ## Graphs that a snapshot keeps -/

/-- A node that its snapshot keeps: plain params and exactly the two
coordinates. -/
structure Node.Storable (node : Node) : Prop where
  plain : Json.allFieldsPlain node.params = true
  placed : ∃ x y, node.position = ([("x", x), ("y", y)] : Fields)

/-- A graph that its snapshot keeps. -/
structure Graph.Storable (g : Graph) : Prop where
  named : g.name ≠ ""
  nodes : ∀ node ∈ g.nodes, node.Storable

/-! ## Changes -/

namespace Graph

/-- What one edit makes of a graph. A node that is added does the work of a
stage, a node that is put in the place of another does the same work, and an
edge that is added ends at two nodes. -/
inductive Change (g : Graph) : Graph → Prop
  | push (node : Node) (fresh : node.id ∉ g.ids) (stage : Stage) (kind : node.kind = stage.name)
      (storable : node.Storable) : Change g (g.push node fresh)
  | replace (old node : Node) (found : old ∈ g.nodes) (id : node.id = old.id)
      (kind : node.kind = old.kind) (storable : old.Storable → node.Storable) :
      Change g (g.replace node)
  | without (id : Text) : Change g (g.without id)
  | link (edge : Edge) (source : edge.source ∈ g.ids) (target : edge.target ∈ g.ids) :
      Change g (g.withEdges (g.edges ++ [edge]))
  | unlink (index : Nat) : Change g (g.withEdges (g.edges.eraseIdx index))

theorem Storable.of_change {g g' : Graph} (h : g.Storable) (hchange : Change g g') :
    g'.Storable := by
  cases hchange with
  | push node fresh stage kind storable =>
    refine ⟨h.named, fun other hother => ?_⟩
    rcases List.mem_append.mp hother with hother | hother
    · exact h.nodes other hother
    · rw [List.mem_singleton.mp hother]
      exact storable
  | replace old node found id kind storable =>
    refine ⟨h.named, fun other hother => ?_⟩
    obtain ⟨before, hbefore, rfl⟩ := List.mem_map.mp hother
    split
    · exact storable (h.nodes old found)
    · exact h.nodes before hbefore
  | without id => exact ⟨h.named, fun other hother => h.nodes other (List.mem_filter.mp hother).1⟩
  | link edge source target => exact ⟨h.named, h.nodes⟩
  | unlink index => exact ⟨h.named, h.nodes⟩

/-! ## Every edit is a change -/

theorem of_map_eq_ok {α β ε : Type} {outcome : Except ε α} {f : α → β} {result : β}
    (h : outcome.map f = .ok result) : ∃ value, outcome = .ok value ∧ f value = result := by
  cases outcome with
  | error e => cases h
  | ok value => exact ⟨value, rfl, Except.ok.inj h⟩

/-- Both coordinates come from their axes, or the position comes not at all. -/
theorem placed_of_axes {x? y? : Except EditError Json} {position : Fields}
    (h : (match x? with
      | .error e => (.error e : Except EditError Fields)
      | .ok x => y?.map fun y => ([("x", x), ("y", y)] : Fields)) = .ok position) :
    ∃ x y, position = ([("x", x), ("y", y)] : Fields) := by
  split at h
  · cases h
  · obtain ⟨y, _, hposition⟩ := of_map_eq_ok h
    exact ⟨_, y, hposition.symm⟩

theorem placed_of_readPosition {value : Json} {position : Fields}
    (h : readPosition value = .ok position) : ∃ x y, position = ([("x", x), ("y", y)] : Fields) := by
  unfold readPosition at h
  split at h
  · exact placed_of_axes h
  · cases h

theorem placed_of_shifted {old position : Fields} (h : shifted old = .ok position) :
    ∃ x y, position = ([("x", x), ("y", y)] : Fields) := placed_of_axes h

theorem plain_of_updatedParams {node : Node} (h : node.Storable) {given : Option Json}
    {params : Fields} (hparams : updatedParams node given = .ok params) :
    Json.allFieldsPlain params = true := by
  unfold updatedParams checkParams at hparams
  split at hparams
  · cases hparams
    exact h.plain
  · split at hparams
    · split at hparams
      · cases hparams
        assumption
      · cases hparams
    · cases hparams

theorem allPlain_strings (texts : List Text) : Json.allPlain (texts.map Json.string) = true := by
  induction texts with
  | nil => rfl
  | cons text rest ih => simpa [Json.allPlain, Json.isPlain] using ih

section

variable {g g' : Graph} {ids : IdSupply}

theorem change_of_add {node added : Node} (h : g.add node = .ok (added, g')) (stage : Stage)
    (kind : node.kind = stage.name) (storable : node.Storable) : added ∈ g'.nodes ∧ Change g g' := by
  obtain ⟨fresh, rfl, rfl⟩ := of_add h
  exact ⟨by simp [push], .push added fresh stage kind storable⟩

/-- The node that was created is in the graph. -/
theorem change_of_createNode {kind : Text} {label : Option Text} {position : Option Json}
    {node : Node} (h : (g.createNode ids kind label position).1 = .ok (node, g')) :
    node ∈ g'.nodes ∧ Change g g' := by
  unfold createNode at h
  split at h
  · cases h
  · rename_i stage _
    simp only at h
    split at h
    · exact change_of_add h stage rfl ⟨rfl, _, _, rfl⟩
    · split at h
      · cases h
      · rename_i hposition
        exact change_of_add h stage rfl ⟨rfl, placed_of_readPosition hposition⟩

theorem change_of_removeNode {id : Text} {node : Node} (h : g.removeNode id = .ok (node, g')) :
    Change g g' := by
  obtain ⟨_, _, hpair⟩ := of_map_eq_ok h
  cases hpair
  exact .without id

theorem change_of_updateNode {id : Text} {label summary : Option Text} {params : Option Json}
    {node : Node} (h : g.updateNode id label summary params = .ok (node, g')) : Change g g' := by
  unfold updateNode at h
  split at h
  · cases h
  · rename_i old hold
    obtain ⟨params, hparams, hpair⟩ := of_map_eq_ok h
    cases hpair
    exact .replace old _ (of_require hold).1 rfl rfl fun hstored =>
      ⟨plain_of_updatedParams hstored hparams, hstored.placed⟩

theorem change_of_setPosition {id : Text} {x y : Json} {done : Unit}
    (h : g.setPosition id x y = .ok (done, g')) : Change g g' := by
  obtain ⟨node, hnode, hpair⟩ := of_map_eq_ok h
  cases hpair
  exact .replace node _ (of_require hnode).1 rfl rfl fun hstored => ⟨hstored.plain, x, y, rfl⟩

theorem change_of_group {members : List Text} {label : Text} {node : Node}
    (h : (g.group ids members label).1 = .ok (node, g')) : Change g g' := by
  unfold group at h
  split at h
  · cases h
  · split at h
    · cases h
    · split at h
      · cases h
      · simp only at h
        split at h
        · cases h
        · rename_i hposition
          refine (change_of_add h .composite rfl ⟨?_, placed_of_shifted hposition⟩).2
          simp [Json.allFieldsPlain, Json.isPlain, allPlain_strings]

theorem change_of_addEdge {source target id : Text} {edge : Edge}
    (h : (g.addEdge ids source target id).1 = .ok (edge, g')) : Change g g' := by
  unfold addEdge at h
  split at h
  · cases h
  · cases h
  · rename_i _ _ hsource htarget
    cases h
    obtain ⟨hs, rfl⟩ := of_require hsource
    obtain ⟨ht, rfl⟩ := of_require htarget
    exact .link _ (List.mem_map_of_mem hs) (List.mem_map_of_mem ht)

theorem change_of_removeEdge {index : Int} {edge : Edge} (h : g.removeEdge index = .ok (edge, g')) :
    Change g g' := by
  unfold removeEdge at h
  split at h
  · split at h
    · cases h
      exact .unlink index.toNat
    · cases h
  · cases h

end

end Graph

end PipelineBoard
