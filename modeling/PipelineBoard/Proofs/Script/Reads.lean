-- What a script reads of its nodes: the labels and the params of the nodes of
-- each stage, in their order, and of most stages the first node only. Ids,
-- summaries and positions take no part, and composites and nodes of unknown kinds
-- write nothing.
import Mathlib.Data.List.Forall2
import PipelineBoard.Script.Emit

namespace PipelineBoard

/-- Two nodes that do the same work, whatever their ids, summaries and
positions. -/
structure Node.SameWork (a b : Node) : Prop where
  kind : a.kind = b.kind
  label : a.label = b.label
  params : a.params = b.params

theorem Node.SameWork.is_eq {a b : Node} (h : a.SameWork b) (stage : Stage) :
    a.is stage = b.is stage := by
  unfold Node.is Node.stage?
  rw [h.kind]

/-- The nodes differ in nothing that the fragment of a stage reads of one node. -/
def Node.SameFor (stage : Stage) (a b : Node) : Prop :=
  match stage with
  | .data | .transform | .model => a.label = b.label ∧ a.params = b.params
  | .split => a.params = b.params
  | .optimizer => a.params.get? "lr" = b.params.get? "lr"
  | .trainer => a.params.get? "batch_size" = b.params.get? "batch_size" ∧
      a.params.get? "epochs" = b.params.get? "epochs"
  | .loss | .metric | .composite => True

theorem Node.SameFor.refl (stage : Stage) (node : Node) : node.SameFor stage node := by
  cases stage <;> simp [SameFor]

theorem Node.SameWork.sameFor {a b : Node} (h : a.SameWork b) (stage : Stage) :
    a.SameFor stage b := by
  cases stage <;> simp [SameFor, h.label, h.params]

theorem any_is_congr (stage : Stage) {nodes nodes' : List Node}
    (h : List.Forall₂ Node.SameWork nodes nodes') :
    nodes.any (·.is stage) = nodes'.any (·.is stage) := by
  induction h with
  | nil => rfl
  | cons hnode _ ih => rw [List.any_cons, List.any_cons, hnode.is_eq, ih]

/-! ## Params -/

namespace Params

theorem numberOr_congr {params params' : Fields} {key : Text}
    (h : params.get? key = params'.get? key) (default : Json) :
    numberOr params key default = numberOr params' key default := by
  have hvalue : valueOr params key default = valueOr params' key default := by
    unfold valueOr
    rw [h]
  unfold numberOr
  rw [hvalue]

theorem count_congr {params params' : Fields} {key : Text}
    (h : params.get? key = params'.get? key) (default : Int) :
    count params key default = count params' key default := by
  unfold count countOr
  rw [numberOr_congr h]

end Params

/-! ## Fragments -/

namespace Fragment

open List (Forall₂)

theorem single_congr {stage : Stage} {a b : Node} (h : a.SameFor stage b) :
    single stage a = single stage b := by
  funext index w
  cases stage with
  | data => simp only [single, data, h.1, h.2]
  | transform => simp only [single, transform, h.1, h.2]
  | split => simp only [single, split, show a.params = b.params from h]
  | model => simp only [single, model, h.1, h.2]
  | loss => rfl
  | optimizer => simp only [single, optimizer, Params.numberOr_congr h]
  | metric => rfl
  | trainer => simp only [single, trainer, Params.count_congr h.1, Params.count_congr h.2]
  | composite => rfl

theorem each_congr {stage : Stage} {nodes nodes' : List Node}
    (h : Forall₂ (Node.SameFor stage) nodes nodes') (index : Int) :
    each stage index nodes = each stage index nodes' := by
  induction h generalizing index with
  | nil => rfl
  | cons hnode _ ih =>
    funext w
    rw [each, each, single_congr hnode, ih]

theorem first_congr {stage : Stage} {nodes nodes' : List Node}
    (h : Option.Rel (Node.SameFor stage) nodes.head? nodes'.head?) :
    first stage nodes = first stage nodes' := by
  funext w
  cases nodes <;> cases nodes' <;> cases h
  case nil.nil => rfl
  case cons.cons hnode => rw [first, first, single_congr hnode]

/-- The groups differ in nothing that the fragment of a stage reads: every data
and every transform node is read, and the first node of the other stages. -/
def SameGroup (stage : Stage) (nodes nodes' : List Node) : Prop :=
  match stage with
  | .data => Forall₂ (Node.SameFor .data) nodes nodes'
  | .transform => Forall₂ (Node.SameFor .transform) nodes nodes'
  | .composite => True
  | stage => Option.Rel (Node.SameFor stage) nodes.head? nodes'.head?

theorem head?_congr {stage : Stage} {nodes nodes' : List Node}
    (h : Forall₂ (Node.SameFor stage) nodes nodes') :
    Option.Rel (Node.SameFor stage) nodes.head? nodes'.head? := by
  cases h with
  | nil => exact .none
  | cons hnode _ => exact .some hnode

theorem SameGroup.of_forall₂ {stage : Stage} {nodes nodes' : List Node}
    (h : Forall₂ (Node.SameFor stage) nodes nodes') : SameGroup stage nodes nodes' := by
  cases stage with
  | data | transform => exact h
  | composite => exact trivial
  | split | model | loss | optimizer | trainer | metric => exact head?_congr h

/-- Of the other stages the first node is enough. -/
theorem SameGroup.of_head?_eq {stage : Stage} (hdata : stage ≠ .data)
    (htransform : stage ≠ .transform) {nodes nodes' : List Node} (h : nodes.head? = nodes'.head?) :
    SameGroup stage nodes nodes' := by
  have hfirst : Option.Rel (Node.SameFor stage) nodes.head? nodes'.head? := by
    rw [h]
    cases nodes'.head? with
    | none => exact .none
    | some node => exact .some (.refl stage node)
  cases stage with
  | data => exact absurd rfl hdata
  | transform => exact absurd rfl htransform
  | composite => exact trivial
  | split | model | loss | optimizer | trainer | metric => exact hfirst

theorem SameGroup.refl (stage : Stage) (nodes : List Node) : SameGroup stage nodes nodes :=
  .of_forall₂ (List.forall₂_same.mpr fun node _ => .refl stage node)

theorem isEmpty_congr {stage : Stage} {nodes nodes' : List Node}
    (h : Option.Rel (Node.SameFor stage) nodes.head? nodes'.head?) :
    nodes.isEmpty = nodes'.isEmpty := by
  cases nodes <;> cases nodes' <;> cases h <;> rfl

theorem SameGroup.isEmpty_eq {stage : Stage} (hstage : stage ≠ .composite)
    {nodes nodes' : List Node} (h : SameGroup stage nodes nodes') :
    nodes.isEmpty = nodes'.isEmpty := by
  cases stage with
  | data | transform => exact isEmpty_congr (head?_congr h)
  | composite => exact absurd rfl hstage
  | split | model | loss | optimizer | trainer | metric => exact isEmpty_congr h

theorem SameGroup.group_eq {stage : Stage} {nodes nodes' : List Node}
    (h : SameGroup stage nodes nodes') : group stage nodes = group stage nodes' := by
  funext w
  cases stage with
  | data => simp only [group, each_congr h]
  | transform => simp only [group, each_congr h]
  | metric => simp only [group, isEmpty_congr h]
  | composite => rfl
  | split | model | loss | optimizer | trainer => simp only [group, first_congr h]

end Fragment

/-! ## Scripts -/

namespace Script

open List (Forall₂)
open Fragment (SameGroup)

theorem fragment_congr {stage : Stage} {nodes nodes' : List Node}
    (h : SameGroup stage (nodes.filter (·.is stage)) (nodes'.filter (·.is stage))) (w : Writer) :
    fragment nodes w stage = fragment nodes' w stage := by
  by_cases hstage : stage = .composite
  · have hcomposite : ∀ some : List Node, fragment some w .composite = w := by
      intro some
      unfold fragment
      simp only
      split <;> rfl
    rw [hstage, hcomposite, hcomposite]
  · simp only [fragment, h.isEmpty_eq hstage, h.group_eq]

/-- A script is the same if every fragment reads the same. -/
theorem write_of_groups (name : Text) {nodes nodes' : List Node}
    (h : ∀ stage, SameGroup stage (nodes.filter (·.is stage)) (nodes'.filter (·.is stage))) :
    write name nodes = write name nodes' := by
  have hfragment : fragment nodes = fragment nodes' := by
    funext w stage
    exact fragment_congr (h stage) w
  unfold write
  rw [hfragment]

theorem filter_is_congr (stage : Stage) {nodes nodes' : List Node}
    (h : Forall₂ Node.SameWork nodes nodes') :
    Forall₂ Node.SameWork (nodes.filter (·.is stage)) (nodes'.filter (·.is stage)) := by
  refine List.rel_filter (fun a b hab => ?_) h
  simp only [hab.is_eq stage]

/-- Nodes that do the same work in the same order have the same script. -/
theorem write_congr (name : Text) {nodes nodes' : List Node}
    (h : Forall₂ Node.SameWork nodes nodes') : write name nodes = write name nodes' :=
  write_of_groups name fun stage =>
    .of_forall₂ ((filter_is_congr stage h).imp fun _ _ hwork => hwork.sameFor stage)

/-- A script depends on the nodes of each stage but the composites, and on no
node without a stage. -/
theorem write_of_stages (name : Text) {nodes nodes' : List Node}
    (h : ∀ stage, stage ≠ .composite →
      nodes.filter (·.is stage) = nodes'.filter (·.is stage)) :
    write name nodes = write name nodes' := by
  refine write_of_groups name fun stage => ?_
  by_cases hstage : stage = .composite
  · rw [hstage]
    exact trivial
  · rw [h stage hstage]
    exact .refl stage _

end Script

end PipelineBoard
