-- The grammar of snapshots: which values are snapshots, and which graph each of
-- them holds.
import Mathlib.Data.List.Forall2
import PipelineBoard.Snapshot.Reader

namespace PipelineBoard.Snapshot

open List (Forall₂)

/-! ## The grammar -/

def IsText (value : Json) : Prop := ∃ s, value = .string s

def IsObject (value : Json) : Prop := ∃ fields, value = .object fields

/-- An object of values that params may hold. -/
def IsPlainObject (value : Json) : Prop :=
  ∃ fields, value = .object fields ∧ Json.allFieldsPlain fields = true

/-- The field is not there, or null. -/
def Absent (fields : Fields) (key : Text) : Prop :=
  fields.get? key = none ∨ fields.get? key = some .null

/-- The field holds a value of a kind. -/
def Has (fields : Fields) (key : Text) (Kind : Json → Prop) : Prop :=
  ∃ value, fields.get? key = some value ∧ Kind value

/-- The field is absent, null, or holds a value of a kind. -/
def MayHave (fields : Fields) (key : Text) (Kind : Json → Prop) : Prop :=
  Absent fields key ∨ Has fields key Kind

/-- What a node must be, under an id. Its id and its position stand beside
`data`; its other fields are those inside, and those beside that are not
overridden. -/
structure IsNode (node : Fields) (id : Text) : Prop where
  id : node.get? "id" = some (.string id)
  kind : Has (stageFields node) "type" IsText
  label : MayHave (stageFields node) "label" IsText
  summary : MayHave (stageFields node) "summary" IsText
  params : MayHave (stageFields node) "params" IsPlainObject
  position : MayHave node "position" IsObject

/-- What an edge must be. -/
structure IsEdge (edge : Fields) : Prop where
  source : Has edge "source" IsText
  target : Has edge "target" IsText

/-- What a snapshot must be: an object with a list of nodes, whose ids are
distinct, and a list of edges. -/
def IsSnapshot (value : Json) : Prop :=
  ∃ fields nodes edges, value = .object fields ∧ Fields.get? fields "nodes" = some (.list nodes) ∧
    Fields.get? fields "edges" = some (.list edges) ∧ MayHave fields "projectName" IsText ∧
    (∃ ids, Forall₂ (fun item id => ∃ node, item = .object node ∧ IsNode node id) nodes ids ∧
      ids.Nodup) ∧
    ∀ item ∈ edges, ∃ edge, item = .object edge ∧ IsEdge edge

/-! ## What a value of the grammar holds -/

/-- The field holds what its value says, or a default if it is absent or
null. -/
def HoldsOr {α : Type} (default : α) (Says : Json → α → Prop) (fields : Fields) (key : Text)
    (what : α) : Prop :=
  Absent fields key ∧ what = default ∨ ∃ value, fields.get? key = some value ∧ Says value what

def SaysText (value : Json) (s : Text) : Prop := value = .string s

def SaysParams (value : Json) (params : Fields) : Prop :=
  value = .object params ∧ Json.allFieldsPlain params = true

/-- Both coordinates, of any value, and zero where one is not there. -/
def SaysPosition (value : Json) (position : Fields) : Prop :=
  ∃ given : Fields, value = .object given ∧
    position = ([("x", (given.get? "x").getD (.real .zero)),
      ("y", (given.get? "y").getD (.real .zero))] : Fields)

def SaysName (value : Json) (name : Text) : Prop :=
  ∃ s, value = .string s ∧ name = nameOrDefault s

structure HoldsNode (fields : Fields) (node : Node) : Prop where
  id : fields.get? "id" = some (.string node.id)
  kind : (stageFields fields).get? "type" = some (.string node.kind)
  label : HoldsOr ("" : Text) SaysText (stageFields fields) "label" node.label
  summary : HoldsOr ("" : Text) SaysText (stageFields fields) "summary" node.summary
  params : HoldsOr [] SaysParams (stageFields fields) "params" node.params
  position : HoldsOr origin SaysPosition fields "position" node.position

structure HoldsEdge (fields : Fields) (edge : Edge) : Prop where
  source : fields.get? "source" = some (.string edge.source)
  target : fields.get? "target" = some (.string edge.target)
  id : (fields.get? "id").getD .null = edge.id

/-- The items are objects that hold the nodes, one each and in this order. -/
def HoldNodes : List Json → List Node → Prop :=
  Forall₂ fun item node => ∃ fields, item = .object fields ∧ HoldsNode fields node

/-- The items are objects that hold the edges, one each and in this order. -/
def HoldEdges : List Json → List Edge → Prop :=
  Forall₂ fun item edge => ∃ fields, item = .object fields ∧ HoldsEdge fields edge

/-- The graph that a snapshot holds. -/
def Holds (value : Json) (g : Graph) : Prop :=
  ∃ fields nodes edges, value = .object fields ∧ Fields.get? fields "nodes" = some (.list nodes) ∧
    Fields.get? fields "edges" = some (.list edges) ∧
    HoldsOr defaultName SaysName fields "projectName" g.name ∧
    HoldNodes nodes g.nodes ∧ HoldEdges edges g.edges

/-! ## Every value of the grammar holds a graph -/

theorem mayHave_iff {α : Type} {default : α} {Says : Json → α → Prop} {Kind : Json → Prop}
    (h : ∀ value, Kind value ↔ ∃ what, Says value what) {fields : Fields} {key : Text} :
    MayHave fields key Kind ↔ ∃ what, HoldsOr default Says fields key what := by
  constructor
  · rintro (habsent | ⟨value, hvalue, hkind⟩)
    · exact ⟨default, Or.inl ⟨habsent, rfl⟩⟩
    · obtain ⟨what, hsaid⟩ := (h value).mp hkind
      exact ⟨what, Or.inr ⟨value, hvalue, hsaid⟩⟩
  · rintro ⟨what, ⟨habsent, _⟩ | ⟨value, hvalue, hsaid⟩⟩
    · exact Or.inl habsent
    · exact Or.inr ⟨value, hvalue, (h value).mpr ⟨what, hsaid⟩⟩

theorem isText_iff (value : Json) : IsText value ↔ ∃ s, SaysText value s := Iff.rfl

theorem isPlainObject_iff (value : Json) : IsPlainObject value ↔ ∃ params, SaysParams value params :=
  Iff.rfl

theorem isObject_iff (value : Json) : IsObject value ↔ ∃ position, SaysPosition value position :=
  ⟨fun ⟨fields, h⟩ => ⟨_, fields, h, rfl⟩, fun ⟨_, fields, h, _⟩ => ⟨fields, h⟩⟩

theorem isText_iff_saysName (value : Json) : IsText value ↔ ∃ name, SaysName value name :=
  ⟨fun ⟨s, h⟩ => ⟨_, s, h, rfl⟩, fun ⟨_, s, h, _⟩ => ⟨s, h⟩⟩

theorem isNode_iff {fields : Fields} {id : Text} :
    IsNode fields id ↔ ∃ node, node.id = id ∧ HoldsNode fields node := by
  constructor
  · rintro ⟨hid, ⟨_, hkind, kind, rfl⟩, hlabel, hsummary, hparams, hposition⟩
    obtain ⟨label, hlabel⟩ := (mayHave_iff isText_iff).mp hlabel
    obtain ⟨summary, hsummary⟩ := (mayHave_iff isText_iff).mp hsummary
    obtain ⟨params, hparams⟩ := (mayHave_iff isPlainObject_iff).mp hparams
    obtain ⟨position, hposition⟩ := (mayHave_iff isObject_iff).mp hposition
    exact ⟨{ id, kind, label, params, summary, position }, rfl, hid, hkind, hlabel, hsummary,
      hparams, hposition⟩
  · rintro ⟨node, rfl, h⟩
    exact ⟨h.id, ⟨_, h.kind, _, rfl⟩, (mayHave_iff isText_iff).mpr ⟨_, h.label⟩,
      (mayHave_iff isText_iff).mpr ⟨_, h.summary⟩, (mayHave_iff isPlainObject_iff).mpr ⟨_, h.params⟩,
      (mayHave_iff isObject_iff).mpr ⟨_, h.position⟩⟩

theorem isEdge_iff {fields : Fields} : IsEdge fields ↔ ∃ edge, HoldsEdge fields edge := by
  constructor
  · rintro ⟨⟨_, hsource, source, rfl⟩, ⟨_, htarget, target, rfl⟩⟩
    exact ⟨⟨source, target, _⟩, hsource, htarget, rfl⟩
  · rintro ⟨edge, h⟩
    exact ⟨⟨_, h.source, _, rfl⟩, ⟨_, h.target, _, rfl⟩⟩

theorem areNodes_iff {items : List Json} {ids : List Text} :
    Forall₂ (fun item id => ∃ node, item = .object node ∧ IsNode node id) items ids ↔
      ∃ nodes : List Node, nodes.map Node.id = ids ∧ HoldNodes items nodes := by
  constructor
  · intro h
    induction h with
    | nil => exact ⟨[], rfl, .nil⟩
    | cons hitem _ ih =>
      obtain ⟨fields, hfields, hnode⟩ := hitem
      obtain ⟨node, rfl, hholds⟩ := isNode_iff.mp hnode
      obtain ⟨nodes, rfl, hnodes⟩ := ih
      exact ⟨node :: nodes, rfl, .cons ⟨fields, hfields, hholds⟩ hnodes⟩
  · rintro ⟨nodes, rfl, h⟩
    rw [List.forall₂_map_right_iff]
    refine h.imp fun item node ⟨fields, hfields, hholds⟩ => ⟨fields, hfields, ?_⟩
    exact isNode_iff.mpr ⟨node, rfl, hholds⟩

theorem areEdges_iff {items : List Json} :
    (∀ item ∈ items, ∃ edge, item = .object edge ∧ IsEdge edge) ↔
      ∃ edges, HoldEdges items edges := by
  constructor
  · intro h
    induction items with
    | nil => exact ⟨[], .nil⟩
    | cons item items ih =>
      obtain ⟨fields, hfields, hedge⟩ := h item List.mem_cons_self
      obtain ⟨edge, hholds⟩ := isEdge_iff.mp hedge
      obtain ⟨edges, hedges⟩ := ih fun other hother => h other (List.mem_cons_of_mem _ hother)
      exact ⟨edge :: edges, .cons ⟨fields, hfields, hholds⟩ hedges⟩
  · rintro ⟨edges, h⟩
    induction h with
    | nil => simp
    | cons hitem _ ih =>
      obtain ⟨fields, hfields, hholds⟩ := hitem
      exact List.forall_mem_cons.mpr ⟨⟨fields, hfields, isEdge_iff.mpr ⟨_, hholds⟩⟩, ih⟩

/-- A value is in the grammar just if it holds some graph. -/
theorem isSnapshot_iff {value : Json} : IsSnapshot value ↔ ∃ g, Holds value g := by
  constructor
  · rintro ⟨fields, nodes, edges, hvalue, hnodes, hedges, hname, ⟨ids, hids, distinct⟩, hlinks⟩
    obtain ⟨name, hname⟩ := (mayHave_iff isText_iff_saysName).mp hname
    obtain ⟨gnodes, rfl, hgnodes⟩ := areNodes_iff.mp hids
    obtain ⟨gedges, hgedges⟩ := areEdges_iff.mp hlinks
    exact ⟨⟨name, gnodes, gedges, distinct⟩, fields, nodes, edges, hvalue, hnodes, hedges, hname,
      hgnodes, hgedges⟩
  · rintro ⟨g, fields, nodes, edges, hvalue, hnodes, hedges, hname, hgnodes, hgedges⟩
    exact ⟨fields, nodes, edges, hvalue, hnodes, hedges,
      (mayHave_iff isText_iff_saysName).mpr ⟨_, hname⟩,
      ⟨g.ids, areNodes_iff.mpr ⟨g.nodes, rfl, hgnodes⟩, g.ids_nodup⟩,
      areEdges_iff.mpr ⟨_, hgedges⟩⟩

end PipelineBoard.Snapshot
