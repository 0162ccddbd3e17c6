-- Scripts with a form in UTF-8: that of a graph has one if the name, the labels and
-- the params of the graph do.
import PipelineBoard.Proofs.Json.Encodable
import PipelineBoard.Proofs.Script.Code
import PipelineBoard.Proofs.Script.FileName
import PipelineBoard.Proofs.Script.Shown

namespace PipelineBoard

open Text

/-! ## Pieces of a script -/

namespace Writer

/-- The piece adds only lines with a form in UTF-8. -/
def Encodes (piece : Writer → Writer) : Prop :=
  ∃ texts, Adds piece texts ∧ ∀ t ∈ texts, t.isEncodable = true

theorem encodes_all {texts : List Text} (h : ∀ t ∈ texts, t.isEncodable = true) :
    Encodes (all texts) := ⟨texts, adds_all texts, h⟩

theorem encodes_line {text : Text} (h : text.isEncodable = true) : Encodes (line text) :=
  ⟨[text], adds_line text, List.forall_mem_singleton.mpr h⟩

theorem encodes_nothing : Encodes (fun w => w) := ⟨[], adds_nothing, by simp⟩

theorem encodes_showing (value : Json) : Encodes (showing value) :=
  ⟨[], adds_showing value, by simp⟩

theorem encodes_comment {text : Text} (h : text.isEncodable = true) : Encodes (comment text) :=
  encodes_line (by simp [h])

theorem encodes_blank : Encodes blank := encodes_line (isEncodable_ofString _)

theorem Encodes.andThen {first second : Writer → Writer} (h1 : Encodes first)
    (h2 : Encodes second) : Encodes (fun w => second (first w)) := by
  obtain ⟨texts, hadds, htexts⟩ := h1
  obtain ⟨texts', hadds', htexts'⟩ := h2
  exact ⟨texts ++ texts', hadds.andThen hadds', List.forall_mem_append.mpr ⟨htexts, htexts'⟩⟩

theorem isEncodable_indented (level : Int) {text : Text} (h : text.isEncodable = true) :
    (indented level text).isEncodable = true := by
  have hmargin : (margin level).isEncodable = true := by
    rw [isEncodable_iff_isCharacter, margin, Text.toList_ofList]
    intro p hp
    rw [List.eq_of_mem_replicate hp]
    rfl
  unfold indented
  split
  · rfl
  · rw [isEncodable_append, hmargin, h]
    rfl

theorem Encodes.block {body : Writer → Writer} (h : Encodes body) {heading : Text}
    (hheading : heading.isEncodable = true) : Encodes (block heading body) := by
  obtain ⟨texts, hadds, htexts⟩ := h
  refine ⟨_, hadds.block heading, List.forall_mem_cons.mpr ⟨hheading, ?_⟩⟩
  intro t ht
  obtain ⟨u, hu, rfl⟩ := List.mem_map.mp ht
  exact isEncodable_indented 1 (htexts u hu)

/-- A text that a piece wrote from nothing has a form in UTF-8. -/
theorem Encodes.isEncodable_joined {piece : Writer → Writer} (h : Encodes piece) :
    ((piece {}).joined ++ "\n").isEncodable = true := by
  obtain ⟨texts, hadds, htexts⟩ := h
  have hfeed : ∀ p ∈ Text.toList "\n", isCharacter p = true := List.forall_mem_singleton.mpr rfl
  have hjoined : (Writer.joined (piece {})).isEncodable = true := by
    rw [Writer.joined, hadds.lines_eq, isEncodable_iff_isCharacter, forall_mem_intercalate hfeed]
    exact fun t ht => isEncodable_iff_isCharacter.mp (htexts t ht)
  rw [isEncodable_append, hjoined]
  rfl

end Writer

/-! ## Fragments -/

/-- The label and the params of the node have a form in UTF-8. -/
structure Node.IsEncodable (node : Node) : Prop where
  label : node.label.isEncodable = true
  params : Json.allFieldsEncodable node.params = true

namespace Fragment

open Writer

theorem isEncodable_orElse {text other : Text} (h : text.isEncodable = true)
    (hother : other.isEncodable = true) : (orElse text other).isEncodable = true := by
  unfold orElse
  split
  · exact hother
  · exact h

theorem isEncodable_oneLine {text : Text} (h : text.isEncodable = true) :
    (oneLine text).isEncodable = true := by
  rw [isEncodable_iff_isCharacter] at h ⊢
  rw [oneLine, Text.toList_ofList]
  have hspace : isCharacter ' ' = true := rfl
  generalize text.toList = cs at h ⊢
  fun_induction foldLines cs <;> grind

theorem isEncodable_identifier (label : Text) {fallback : Text}
    (hfallback : ∀ c ∈ fallback.toList, isWord c = true) (index : Nat) :
    (identifier label fallback index).isEncodable = true :=
  isEncodable_of_class (fun half => by simp [isWord])
    (isWord_of_mem_identifier label hfallback index)

theorem encodes_note {params : Fields} (h : Json.allFieldsEncodable params = true) :
    Encodes (note params) :=
  (encodes_all (Params.isEncodable_of_mem_commentLines h)).andThen (encodes_showing _)

theorem encodes_modelBody : Encodes modelBody := by
  have hinit : Encodes modelInit :=
    (encodes_line (isEncodable_ofString _)).andThen (encodes_comment (isEncodable_ofString _))
      |>.andThen (encodes_line (isEncodable_ofString _))
  have hforward := (encodes_line (isEncodable_ofString "return self.net(x)")).block
    (isEncodable_ofString "def forward(self, x):")
  exact ((hinit.block (isEncodable_ofString _)).andThen encodes_blank).andThen hforward

theorem encodes_trainEpoch : Encodes trainEpoch := by
  have hstep : Encodes trainStep := by
    apply encodes_all
    simp
  have hloop := hstep.block (isEncodable_ofString "for x, y in train_loader:")
  exact ((encodes_line (isEncodable_ofString _)).andThen hloop).andThen
    (encodes_line (isEncodable_ofString _))

theorem encodes_trainer (node : Node) : Encodes (trainer node) := by
  let size := (Params.count node.params "batch_size" 64).repr
  let epochs := (Params.count node.params "epochs" 3).repr
  have htrain : Text.isEncodable ("train_loader = DataLoader(train_ds, batch_size=" ++ size ++
      ", shuffle=True)  # TODO") = true := by simp
  have hval : Text.isEncodable ("val_loader = DataLoader(val_ds, batch_size=" ++ size ++
      ")  # TODO") = true := by simp
  have hfor : Text.isEncodable ("for epoch in range(" ++ epochs ++ "):") = true := by simp
  have hloaders := ((encodes_comment (isEncodable_ofString "Dataloaders")).andThen
    (encodes_line htrain)).andThen (encodes_line hval)
  have htraining := ((hloaders.andThen encodes_blank).andThen
    (encodes_comment (isEncodable_ofString "Train loop"))).andThen (encodes_trainEpoch.block hfor)
  exact (htraining.andThen (encodes_showing _)).andThen (encodes_showing _)

theorem encodes_metric : Encodes metric := by
  have hstart : Encodes (all ["model.eval()", "correct = 0", "total = 0"]) := by
    apply encodes_all
    simp
  have hstep : Encodes metricStep := by
    apply encodes_all
    simp
  have hloop := (hstep.block (isEncodable_ofString "for x, y in val_loader:")).block
    (isEncodable_ofString "with torch.no_grad():")
  exact ((((encodes_comment (isEncodable_ofString _)).andThen hstart).andThen hloop).andThen
    (encodes_line (isEncodable_ofString _))).andThen encodes_blank

theorem allFieldsEncodable_splitParams {params : Fields}
    (h : Json.allFieldsEncodable params = true) :
    Json.allFieldsEncodable (splitParams params) = true := by
  have hdefault : Json.allFieldsEncodable defaultSplit = true := by decide +kernel
  refine Json.allFieldsEncodable_overriddenBy hdefault ?_
  rw [Json.allFieldsEncodable_iff] at h ⊢
  exact fun field hfield => h field (List.mem_of_mem_filter hfield)

/-- What a node writes has a form in UTF-8 if the node has one. -/
theorem encodes_single (stage : Stage) {node : Node} (h : node.IsEncodable) (index : Nat) :
    Encodes (single stage node index) := by
  have hline := isEncodable_oneLine h.label
  cases stage with
  | data =>
    have hname := isEncodable_identifier node.label (forall_mem_given rfl :
      ∀ c ∈ Text.toList "dataset", isWord c = true) index
    have htitle := isEncodable_orElse hline hname
    exact ((encodes_comment (by simp [htitle])).andThen (encodes_line (by simp [hname]))).andThen
      (encodes_note h.params)
  | transform =>
    have hname := isEncodable_identifier node.label (forall_mem_given rfl :
      ∀ c ∈ Text.toList "transform", isWord c = true) index
    exact (encodes_line (by simp [hname])).andThen (encodes_note h.params)
  | split =>
    have hnote := encodes_note (allFieldsEncodable_splitParams h.params)
    exact ((encodes_comment (isEncodable_ofString _)).andThen
      (encodes_line (isEncodable_ofString _))).andThen hnote
  | model =>
    have htitle := isEncodable_orElse hline (isEncodable_ofString "Model")
    have hclass := encodes_modelBody.block (isEncodable_ofString "class GeneratedModel(nn.Module):")
    have hbefore := (((encodes_comment (by simp [htitle] : Text.isEncodable ("Model: " ++
      orElse (oneLine node.label) "Model") = true)).andThen hclass).andThen
        encodes_blank).andThen encodes_blank
    exact (hbefore.andThen (encodes_line (isEncodable_ofString _))).andThen (encodes_note h.params)
  | loss =>
    exact (encodes_comment (isEncodable_ofString _)).andThen (encodes_line (isEncodable_ofString _))
  | optimizer =>
    have hrate := Json.isEncodable_literal
      (isNumber_numberOr node.params "lr" (by decide +kernel : defaultRate.isNumber = true))
    exact ((encodes_comment (isEncodable_ofString _)).andThen
      (encodes_line (by simp [hrate]))).andThen (encodes_showing _)
  | trainer => exact encodes_trainer node
  | metric => exact encodes_nothing
  | composite => exact encodes_nothing

theorem encodes_each (stage : Stage) {nodes : List Node} (h : ∀ node ∈ nodes, node.IsEncodable) :
    ∀ start : Nat, Encodes (each stage start nodes) := by
  induction nodes with
  | nil => exact fun _ => encodes_nothing
  | cons node rest ih =>
    obtain ⟨hnode, hrest⟩ := List.forall_mem_cons.mp h
    exact fun start => (encodes_single stage hnode start).andThen (ih hrest (start + 1))

theorem encodes_group (stage : Stage) {nodes : List Node} (h : ∀ node ∈ nodes, node.IsEncodable) :
    Encodes (group stage nodes) := by
  have hfirst : ∀ stage, Encodes (first stage nodes) := by
    intro stage
    cases nodes with
    | nil => exact encodes_nothing
    | cons node rest =>
      exact (encodes_single stage (h node List.mem_cons_self) 0).andThen encodes_blank
  cases stage with
  | data => exact (encodes_each .data h 0).andThen encodes_blank
  | transform =>
    exact ((encodes_comment (isEncodable_ofString _)).andThen
      (encodes_each .transform h 0)).andThen encodes_blank
  | split => exact hfirst .split
  | model => exact hfirst .model
  | loss => exact hfirst .loss
  | optimizer => exact hfirst .optimizer
  | trainer => exact hfirst .trainer
  | metric =>
    cases nodes with
    | nil => exact encodes_nothing
    | cons node rest => exact encodes_metric
  | composite => exact encodes_nothing

end Fragment

/-! ## Whole scripts -/

/-- The name, the labels and the params of the graph have a form in UTF-8. -/
structure Graph.IsEncodable (g : Graph) : Prop where
  name : g.name.isEncodable = true
  nodes : ∀ node ∈ g.nodes, node.IsEncodable

namespace Script

open Writer

theorem encodes_fragment {nodes : List Node} (h : ∀ node ∈ nodes, node.IsEncodable)
    (stage : Stage) : Encodes (fun w => fragment nodes w stage) := by
  unfold fragment
  dsimp only
  split
  · exact encodes_nothing
  · exact Fragment.encodes_group stage fun node hnode => h node (List.mem_of_mem_filter hnode)

theorem encodes_fragments {nodes : List Node} (h : ∀ node ∈ nodes, node.IsEncodable)
    (some : List Stage) : Encodes (fun w => some.foldl (fragment nodes) w) := by
  induction some with
  | nil => exact encodes_nothing
  | cons stage rest ih => exact (encodes_fragment h stage).andThen ih

theorem isEncodable_draft {g : Graph} (h : g.IsEncodable) : (draft g).isEncodable = true := by
  have hname := isEncodable_nameOrDefault h.name
  have hheader : Encodes (all (header (nameOrDefault g.name))) := by
    apply encodes_all
    simp [header, Fragment.isEncodable_oneLine hname]
  have hfooter : Encodes (all (footer (nameOrDefault g.name))) := by
    have hartifact : (artifactName (nameOrDefault g.name)).isEncodable = true := by
      rw [artifactName, isEncodable_append, isEncodable_nameOrDefault hname]
      rfl
    apply encodes_all
    simp [footer, isEncodable_doubleQuoted hartifact]
  have hnodes : ∀ node ∈ g.ordered, node.IsEncodable :=
    fun node hnode => h.nodes node (Graph.mem_nodes_of_mem_ordered hnode)
  exact ((hheader.andThen (encodes_fragments hnodes stages)).andThen hfooter).isEncodable_joined

end Script

end PipelineBoard
