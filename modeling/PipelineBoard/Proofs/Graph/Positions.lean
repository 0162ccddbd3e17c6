-- Where the nodes of a graph stand. Every edit leaves a node where it is, or puts it
-- at two coordinates; a group is put beside its first member if that one stands at
-- numbers.
import PipelineBoard.Proofs.Graph.WellFormed
import PipelineBoard.Proofs.Lists

namespace PipelineBoard

/-! ## Coordinates -/

/-- A value that can be added to: a number, or a boolean, which counts as one. -/
def Json.isCoordinate : Json → Bool
  | .int _ => true
  | .real _ => true
  | .bool _ => true
  | _ => false

/-- A coordinate, and the one that is 60 further on. -/
inductive MovedOn : Json → Json → Prop
  | int (n : Int) : MovedOn (.int n) (.int (n + 60))
  | real (d : Binary64) : MovedOn (.real d) (.real (d.add (.ofInt 60)))
  | bool (b : Bool) : MovedOn (.bool b) (.int (b.toInt + 60))

/-- All numbers are of the kind. -/
structure HasNumbers (Kind : Json → Prop) : Prop where
  int : ∀ n, Kind (.int n)
  real : ∀ d, Kind (.real d)

theorem HasNumbers.movedOn {Kind : Json → Prop} (numbers : HasNumbers Kind) {old moved : Json}
    (h : MovedOn old moved) : Kind moved := by
  cases h with
  | int n => exact numbers.int _
  | real d => exact numbers.real _
  | bool b => exact numbers.int _

theorem hasNumbers_isCoordinate : HasNumbers (·.isCoordinate) :=
  ⟨fun _ => rfl, fun _ => rfl⟩

/-- A position is two coordinates of a kind. -/
def IsAt (Kind : Json → Prop) (position : Fields) : Prop :=
  ∃ x y, position = ([("x", x), ("y", y)] : Fields) ∧ Kind x ∧ Kind y

/-- Every node of the graph stands at two coordinates of a kind. -/
def Graph.Placed (Kind : Json → Prop) (g : Graph) : Prop := ∀ node ∈ g.nodes, IsAt Kind node.position

namespace Graph

variable {Kind : Json → Prop}

theorem isAt_origin (numbers : HasNumbers Kind) : IsAt Kind origin :=
  ⟨_, _, rfl, numbers.real _, numbers.real _⟩

theorem real_of_readAxis {fields : Fields} {axis : Text} {value : Json}
    (h : readAxis fields axis = .ok value) : ∃ d, value = .real d := by
  unfold readAxis at h
  split at h
  · obtain ⟨d, _, hvalue⟩ := of_map_eq_ok h
    exact ⟨d, hvalue.symm⟩
  · cases h

theorem isAt_of_readPosition (numbers : HasNumbers Kind) {value : Json} {position : Fields}
    (h : readPosition value = .ok position) : IsAt Kind position := by
  unfold readPosition at h
  split at h
  · split at h
    · cases h
    · rename_i hx
      obtain ⟨y, hy, hposition⟩ := of_map_eq_ok h
      obtain ⟨x, rfl⟩ := real_of_readAxis hx
      obtain ⟨y, rfl⟩ := real_of_readAxis hy
      exact ⟨_, _, hposition.symm, numbers.real x, numbers.real y⟩
  · cases h

/-! ## Moving a position -/

theorem shiftedAxis_of_coordinate {position : Fields} {axis : Text} {value : Json}
    (h : position.get? axis = some value) (hvalue : value.isCoordinate = true) :
    ∃ moved, shiftedAxis position axis = .ok moved ∧ MovedOn value moved := by
  unfold shiftedAxis
  rw [h]
  cases value with
  | int n => exact ⟨_, rfl, .int n⟩
  | real d => exact ⟨_, rfl, .real d⟩
  | bool b => exact ⟨_, rfl, .bool b⟩
  | null => cases hvalue
  | string s => cases hvalue
  | list items => cases hvalue
  | object fields => cases hvalue

theorem shiftedAxis_of_other {position : Fields} {axis : Text} {value : Json}
    (h : position.get? axis = some value) (hvalue : value.isCoordinate = false) :
    shiftedAxis position axis = .error .coordinateNoNumber := by
  unfold shiftedAxis
  rw [h]
  cases value with
  | int n => cases hvalue
  | real d => cases hvalue
  | bool b => cases hvalue
  | null => rfl
  | string s => rfl
  | list items => rfl
  | object fields => rfl

/-- An axis that is absent counts as zero, so that what was moved is a number. -/
theorem kind_of_shiftedAxis (numbers : HasNumbers Kind) {position : Fields} {axis : Text}
    {moved : Json} (h : shiftedAxis position axis = .ok moved) : Kind moved := by
  unfold shiftedAxis at h
  split at h
  · cases h
    exact numbers.real _
  · cases h
    exact numbers.movedOn (.real _)
  · cases h
    exact numbers.movedOn (.int _)
  · cases h
    exact numbers.movedOn (.bool _)
  · cases h

theorem isAt_of_shifted (numbers : HasNumbers Kind) {old position : Fields}
    (h : shifted old = .ok position) : IsAt Kind position := by
  unfold shifted at h
  split at h
  · cases h
  · rename_i hx
    obtain ⟨y, hy, hposition⟩ := of_map_eq_ok h
    exact ⟨_, _, hposition.symm, kind_of_shiftedAxis numbers hx, kind_of_shiftedAxis numbers hy⟩

theorem shifted_of_coordinates {x y : Json} (hx : x.isCoordinate = true)
    (hy : y.isCoordinate = true) :
    ∃ x' y', shifted [("x", x), ("y", y)] = .ok [("x", x'), ("y", y')] ∧
      MovedOn x x' ∧ MovedOn y y' := by
  obtain ⟨x', hshiftX, hmoveX⟩ : ∃ moved, shiftedAxis [("x", x), ("y", y)] "x" = .ok moved ∧
      MovedOn x moved := shiftedAxis_of_coordinate rfl hx
  obtain ⟨y', hshiftY, hmoveY⟩ : ∃ moved, shiftedAxis [("x", x), ("y", y)] "y" = .ok moved ∧
      MovedOn y moved := shiftedAxis_of_coordinate rfl hy
  refine ⟨x', y', ?_, hmoveX, hmoveY⟩
  unfold shifted
  rw [hshiftX, hshiftY]
  rfl

theorem shifted_of_other {x y : Json} (h : (x.isCoordinate && y.isCoordinate) = false) :
    shifted [("x", x), ("y", y)] = .error .coordinateNoNumber := by
  unfold shifted
  cases hx : x.isCoordinate with
  | false =>
    have hshiftX : shiftedAxis [("x", x), ("y", y)] "x" = .error .coordinateNoNumber :=
      shiftedAxis_of_other rfl hx
    rw [hshiftX]
  | true =>
    rw [hx, Bool.true_and] at h
    obtain ⟨x', hshiftX, _⟩ : ∃ moved, shiftedAxis [("x", x), ("y", y)] "x" = .ok moved ∧
        MovedOn x moved := shiftedAxis_of_coordinate rfl hx
    have hshiftY : shiftedAxis [("x", x), ("y", y)] "y" = .error .coordinateNoNumber :=
      shiftedAxis_of_other rfl h
    rw [hshiftX, hshiftY]
    rfl

/-! ## What an edit does to positions -/

section

variable {g g' : Graph} {ids : IdSupply}

theorem placed_empty (name : Text) : (empty name).Placed Kind := by simp [Placed, empty]

theorem Placed.replace (h : g.Placed Kind) {node : Node} (hnode : IsAt Kind node.position) :
    (g.replace node).Placed Kind := by
  intro other hother
  rcases mem_nodes_replace hother with rfl | hother
  · exact hnode
  · exact h other hother

theorem Placed.of_add (h : g.Placed Kind) {node added : Node} (hnode : IsAt Kind node.position)
    (hadd : g.add node = .ok (added, g')) : IsAt Kind added.position ∧ g'.Placed Kind := by
  obtain ⟨fresh, rfl, rfl⟩ := Graph.of_add hadd
  refine ⟨hnode, fun other hother => ?_⟩
  rcases List.mem_append.mp hother with hother | hother
  · exact h other hother
  · rw [List.mem_singleton.mp hother]
    exact hnode

theorem Placed.of_createNode (h : g.Placed Kind) (numbers : HasNumbers Kind) {kind : Text}
    {label : Option Text} {position : Option Json} {node : Node}
    (hcreate : (g.createNode ids kind label position).1 = .ok (node, g')) :
    IsAt Kind node.position ∧ g'.Placed Kind := by
  unfold createNode at hcreate
  split at hcreate
  · cases hcreate
  · simp only at hcreate
    split at hcreate
    · exact h.of_add (isAt_origin numbers) hcreate
    · split at hcreate
      · cases hcreate
      · rename_i hposition
        exact h.of_add (isAt_of_readPosition numbers hposition) hcreate

theorem Placed.of_removeNode (h : g.Placed Kind) {id : Text} {node : Node}
    (hremove : g.removeNode id = .ok (node, g')) : g'.Placed Kind := by
  obtain ⟨_, _, hpair⟩ := of_map_eq_ok hremove
  cases hpair
  exact fun other hother => h other (List.mem_filter.mp hother).1

/-- An update leaves the node where it is. -/
theorem Placed.of_updateNode (h : g.Placed Kind) {id : Text} {label summary : Option Text}
    {params : Option Json} {node : Node}
    (hupdate : g.updateNode id label summary params = .ok (node, g')) : g'.Placed Kind := by
  unfold updateNode at hupdate
  split at hupdate
  · cases hupdate
  · rename_i old hold
    obtain ⟨params, _, hpair⟩ := of_map_eq_ok hupdate
    cases hpair
    exact h.replace (h old (of_require hold).1)

theorem Placed.of_setPosition (h : g.Placed Kind) {id : Text} {x y : Json} (hx : Kind x)
    (hy : Kind y) {done : Unit} (hset : g.setPosition id x y = .ok (done, g')) :
    g'.Placed Kind := by
  obtain ⟨node, _, hpair⟩ := of_map_eq_ok hset
  cases hpair
  exact h.replace ⟨x, y, rfl, hx, hy⟩

theorem Placed.of_group (h : g.Placed Kind) (numbers : HasNumbers Kind) {members : List Text}
    {label : Text} {node : Node} (hgroup : (g.group ids members label).1 = .ok (node, g')) :
    g'.Placed Kind := by
  unfold group at hgroup
  split at hgroup
  · cases hgroup
  · split at hgroup
    · cases hgroup
    · split at hgroup
      · cases hgroup
      · simp only at hgroup
        split at hgroup
        · cases hgroup
        · rename_i hposition
          exact (h.of_add (isAt_of_shifted numbers hposition) hgroup).2

theorem Placed.of_addEdge (h : g.Placed Kind) {source target id : Text} {edge : Edge}
    (hadd : (g.addEdge ids source target id).1 = .ok (edge, g')) : g'.Placed Kind := by
  unfold addEdge at hadd
  split at hadd
  · cases hadd
  · cases hadd
  · cases hadd
    exact h

theorem Placed.of_removeEdge (h : g.Placed Kind) {index : Int} {edge : Edge}
    (hremove : g.removeEdge index = .ok (edge, g')) : g'.Placed Kind := by
  unfold removeEdge at hremove
  split at hremove
  · split at hremove
    · cases hremove
      exact h
    · cases hremove
  · cases hremove

end

/-! ## Groups -/

/-- What a group makes of a graph: one more node at the end, which lists its members
and stands beside the first of them. -/
structure Groups (g : Graph) (id : Text) (members : List Text) (label : Text) (node : Node)
    (next : Graph) : Prop where
  nodes : next.nodes = g.nodes ++ [node]
  edges : next.edges = g.edges
  name : next.name = g.name
  id : node.id = id
  kind : node.kind = "Composite"
  label : node.label = label
  lists : ∃ listed, node.params = ([("members", .list (listed.map Json.string))] : Fields) ∧
    FirstPlaces members listed
  beside : ∃ first ∈ g.nodes, members.head? = some first.id ∧
    ∃ x y x' y', first.position = ([("x", x), ("y", y)] : Fields) ∧
      node.position = ([("x", x'), ("y", y')] : Fields) ∧ MovedOn x x' ∧ MovedOn y y'

section

variable {g : Graph} {first : Node} {others : List Text} (hfirst : first ∈ g.nodes)
  (hothers : ∀ id ∈ others, id ∈ g.ids) (ids : IdSupply) (label : Text)
include hfirst hothers

/-- What is left to fail once all members are found is the move of the first one. -/
theorem group_of_found :
    ∃ node : Node, node.id = (ids.draw "comp").1 ∧ node.kind = "Composite" ∧ node.label = label ∧
      node.params = ([("members", .list ((first.id :: others).eraseDups.map Json.string))] : Fields) ∧
      (g.group ids (first.id :: others) label).1 =
        match shifted first.position with
        | .error e => .error e
        | .ok position => g.add { node with position } := by
  have hnone : others.find? (fun id => !g.contains id) = none := by
    rw [List.find?_eq_none]
    intro id hid
    simp [(g.contains_iff id).mpr (hothers id hid)]
  refine ⟨{
    id := (ids.draw "comp").1, kind := Stage.composite.name, label,
    params := [("members", .list ((first.id :: others).eraseDups.map Json.string))],
    summary := "Node group" }, rfl, rfl, rfl, rfl, ?_⟩
  unfold group
  simp only [require_of_mem hfirst, hnone]
  cases shifted first.position <;> rfl

theorem group_of_coordinates (fresh : (ids.draw "comp").1 ∉ g.ids)
    (hat : IsAt (·.isCoordinate) first.position) :
    ∃ node next, (g.group ids (first.id :: others) label).1 = .ok (node, next) ∧
      Groups g (ids.draw "comp").1 (first.id :: others) label node next := by
  obtain ⟨node, hid, hkind, hlabel, hparams, hgroup⟩ := group_of_found hfirst hothers ids label
  obtain ⟨x, y, hposition, hx, hy⟩ := hat
  obtain ⟨x', y', hshifted, hmoveX, hmoveY⟩ := shifted_of_coordinates hx hy
  rw [hposition, hshifted] at hgroup
  have hfresh : { node with position := [("x", x'), ("y", y')] }.id ∉ g.ids := hid ▸ fresh
  refine ⟨_, _, hgroup.trans (add_eq hfresh), rfl, rfl, rfl, hid, hkind, hlabel, ?_, ?_⟩
  · exact ⟨_, hparams, firstPlaces_eraseDups _⟩
  · exact ⟨first, hfirst, rfl, x, y, x', y', hposition, rfl, hmoveX, hmoveY⟩

theorem group_of_other {x y : Json} (hposition : first.position = ([("x", x), ("y", y)] : Fields))
    (hother : (x.isCoordinate && y.isCoordinate) = false) :
    (g.group ids (first.id :: others) label).1 = .error .coordinateNoNumber := by
  obtain ⟨node, _, _, _, _, hgroup⟩ := group_of_found hfirst hothers ids label
  rwa [hposition, shifted_of_other hother] at hgroup

end

end Graph

end PipelineBoard
