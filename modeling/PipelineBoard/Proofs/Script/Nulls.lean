-- The null characters of a script: the pieces that copy free text into a comment
-- pass one on, and every other piece writes none.
import PipelineBoard.Proofs.Script.Emit
import PipelineBoard.Proofs.Text.Codec

namespace PipelineBoard

/-! ## Null characters that a piece writes -/

namespace Writer

open Text

theorem hasNull_indented (level : Int) (text : Text) :
    HasNull (indented level text) ↔ HasNull text := by
  have hmargin : ¬ HasNull (margin level) := by
    unfold HasNull margin
    rw [Text.toList_ofList]
    intro h
    exact absurd (List.eq_of_mem_replicate h) (by decide)
  unfold indented
  split
  · rename_i h
    rw [Text.isEmpty_iff.mp h]
  · rw [hasNull_append]
    exact or_iff_right hmargin

/-- One of the lines that the piece adds holds a null character just under a
condition. -/
def Carries (piece : Writer → Writer) (condition : Prop) : Prop :=
  ∃ texts, Adds piece texts ∧ ((∃ t ∈ texts, HasNull t) ↔ condition)

theorem Carries.of_iff {piece : Writer → Writer} {condition other : Prop}
    (h : Carries piece condition) (hiff : condition ↔ other) : Carries piece other := by
  obtain ⟨texts, hadds, htexts⟩ := h
  exact ⟨texts, hadds, htexts.trans hiff⟩

theorem carries_all (texts : List Text) : Carries (all texts) (∃ t ∈ texts, HasNull t) :=
  ⟨texts, adds_all texts, Iff.rfl⟩

theorem carries_line (text : Text) : Carries (line text) (HasNull text) := by
  refine ⟨[text], adds_line text, ?_⟩
  simp

theorem carries_nothing : Carries (fun w => w) False := ⟨[], adds_nothing, by simp⟩

theorem carries_showing (value : Json) : Carries (showing value) False :=
  ⟨[], adds_showing value, by simp⟩

theorem carries_comment (text : Text) : Carries (comment text) (HasNull text) := by
  refine (carries_line ("# " ++ text)).of_iff ?_
  rw [hasNull_append]
  exact or_iff_right (not_hasNull_given rfl)

theorem Carries.andThen {first second : Writer → Writer} {condition other : Prop}
    (h1 : Carries first condition) (h2 : Carries second other) :
    Carries (fun w => second (first w)) (condition ∨ other) := by
  obtain ⟨texts, hadds, htexts⟩ := h1
  obtain ⟨texts', hadds', htexts'⟩ := h2
  refine ⟨texts ++ texts', hadds.andThen hadds', ?_⟩
  rw [← htexts, ← htexts']
  simp only [List.mem_append, or_and_right, exists_or]

theorem Carries.block {body : Writer → Writer} {condition : Prop} (h : Carries body condition)
    (heading : Text) : Carries (block heading body) (HasNull heading ∨ condition) := by
  obtain ⟨texts, hadds, htexts⟩ := h
  refine ⟨_, hadds.block heading, ?_⟩
  rw [← htexts]
  simp only [List.mem_cons, List.mem_map, exists_eq_or_imp, exists_exists_and_eq_and,
    hasNull_indented]

/-- The piece writes no null character. -/
abbrev Clean (piece : Writer → Writer) : Prop := Carries piece False

theorem clean_line {text : Text} (h : ¬ HasNull text) : Clean (line text) :=
  (carries_line text).of_iff (iff_of_false h id)

theorem clean_comment {text : Text} (h : ¬ HasNull text) : Clean (comment text) :=
  (carries_comment text).of_iff (iff_of_false h id)

theorem clean_all {texts : List Text} (h : ∀ t ∈ texts, ¬ HasNull t) : Clean (all texts) := by
  refine (carries_all texts).of_iff (iff_of_false ?_ id)
  rintro ⟨t, ht, hnull⟩
  exact h t ht hnull

theorem clean_blank : Clean blank := clean_line (by decide)

theorem Clean.andThen {first second : Writer → Writer} (h1 : Clean first) (h2 : Clean second) :
    Clean (fun w => second (first w)) := (Carries.andThen h1 h2).of_iff (or_self_iff)

theorem Clean.block {body : Writer → Writer} (h : Clean body) {heading : Text}
    (hheading : ¬ HasNull heading) : Clean (block heading body) :=
  (Carries.block h heading).of_iff (iff_of_false (not_or_intro hheading id) id)

/-- The null characters of a text that a piece wrote from nothing. -/
theorem Carries.hasNull_joined {piece : Writer → Writer} {condition : Prop}
    (h : Carries piece condition) : HasNull ((piece {}).joined ++ "\n") ↔ condition := by
  obtain ⟨texts, hadds, htexts⟩ := h
  rw [hasNull_append, ← htexts, Writer.joined, hadds.lines_eq, hasNull_intercalate (by decide)]
  exact or_iff_left (by decide)

end Writer

/-! ## Null characters of the fragments -/

namespace Fragment

open Text Writer

theorem hasNull_orElse {text other : Text} (h : ¬ HasNull other) :
    HasNull (orElse text other) ↔ HasNull text := by
  unfold orElse
  split
  · rename_i hempty
    rw [Text.isEmpty_iff.mp hempty]
    exact iff_of_false h (by decide)
  · rfl

theorem not_hasNull_identifier (label : Text) {fallback : Text}
    (hfallback : ∀ c ∈ fallback.toList, isWord c = true) (index : Nat) :
    ¬ HasNull (identifier label fallback index) :=
  not_hasNull_of_class rfl (isWord_of_mem_identifier label hfallback index)

theorem clean_note (params : Fields) : Clean (note params) := by
  have hlines : Clean (all (Params.commentLines params)) := by
    apply clean_all
    intro line hline
    exact not_hasNull_of_class rfl (Params.isGraphic_of_mem_commentLines params line hline)
  exact hlines.andThen (carries_showing _)

theorem carries_data (node : Node) (index : Nat) :
    Carries (data node index) (HasNull node.label) := by
  have hname : ¬ HasNull (identifier node.label "dataset" index) :=
    not_hasNull_identifier node.label (forall_mem_given rfl) index
  have htitle : ¬ HasNull "Data: " := not_hasNull_given rfl
  have htodo : ¬ HasNull " = None  # TODO: load your dataset here" := not_hasNull_given rfl
  have hpiece := ((carries_comment ("Data: " ++ orElse (oneLine node.label)
      (identifier node.label "dataset" index))).andThen
    (carries_line (identifier node.label "dataset" index ++
      " = None  # TODO: load your dataset here"))).andThen (clean_note node.params)
  refine hpiece.of_iff ?_
  rw [hasNull_append, hasNull_append, hasNull_orElse hname, hasNull_oneLine]
  simp only [htitle, hname, htodo, false_or, or_false]

theorem clean_transform (node : Node) (index : Nat) : Clean (transform node index) := by
  have hname : ¬ HasNull (identifier node.label "transform" index) :=
    not_hasNull_identifier node.label (forall_mem_given rfl) index
  have htodo : ¬ HasNull " = nn.Identity()  # TODO: implement transform" := not_hasNull_given rfl
  have hline := not_hasNull_append hname htodo
  exact (clean_line hline).andThen (clean_note node.params)

theorem clean_split (node : Node) : Clean (split node) := by
  have hcomment := clean_comment (not_hasNull_given rfl : ¬ HasNull "Split")
  have hline := clean_line (not_hasNull_given rfl : ¬ HasNull
    "train_ds, val_ds, test_ds = None, None, None  # TODO: split your dataset according to params")
  exact (hcomment.andThen hline).andThen (clean_note _)

theorem clean_modelBody : Clean modelBody := by
  have hsuper := clean_line (not_hasNull_given rfl : ¬ HasNull "super().__init__()")
  have htodo := clean_comment (not_hasNull_given rfl : ¬ HasNull "TODO: build layers based on params")
  have hnet := clean_line (not_hasNull_given rfl : ¬ HasNull
    "self.net = nn.Sequential(nn.Flatten(), nn.Linear(784, 128), nn.ReLU(), nn.Linear(128, 10))")
  have hinit := ((hsuper.andThen htodo).andThen hnet).block
    (not_hasNull_given rfl : ¬ HasNull "def __init__(self):")
  have hreturn := clean_line (not_hasNull_given rfl : ¬ HasNull "return self.net(x)")
  have hforward := hreturn.block (not_hasNull_given rfl : ¬ HasNull "def forward(self, x):")
  exact (hinit.andThen clean_blank).andThen hforward

theorem carries_model (node : Node) : Carries (model node) (HasNull node.label) := by
  have htitle : ¬ HasNull "Model: " := not_hasNull_given rfl
  have hother : ¬ HasNull "Model" := not_hasNull_given rfl
  have hcomment := carries_comment ("Model: " ++ orElse (oneLine node.label) "Model")
  have hclass := clean_modelBody.block
    (not_hasNull_given rfl : ¬ HasNull "class GeneratedModel(nn.Module):")
  have hmodel := clean_line (not_hasNull_given rfl : ¬ HasNull "model = GeneratedModel().to(device)")
  have hbefore := ((hcomment.andThen hclass).andThen clean_blank).andThen clean_blank
  refine ((hbefore.andThen hmodel).andThen (clean_note node.params)).of_iff ?_
  rw [hasNull_append, hasNull_orElse hother, hasNull_oneLine]
  simp only [htitle, false_or, or_false]

theorem clean_loss : Clean loss := by
  have hcomment := clean_comment (not_hasNull_given rfl : ¬ HasNull "Loss")
  exact hcomment.andThen
    (clean_line (not_hasNull_given rfl : ¬ HasNull "criterion = nn.CrossEntropyLoss()"))

theorem clean_optimizer (node : Node) : Clean (optimizer node) := by
  have hcomment := clean_comment (not_hasNull_given rfl : ¬ HasNull "Optimizer")
  have hcall : ¬ HasNull "optimizer = optim.Adam(model.parameters(), lr=" := not_hasNull_given rfl
  have hrate : ¬ HasNull (Params.numberOr node.params "lr" defaultRate).literal :=
    not_hasNull_of_class rfl
      (Json.isGraphic_of_mem_literal (isNumber_numberOr _ _ (by decide +kernel)))
  have hend : ¬ HasNull ")" := not_hasNull_given rfl
  have hline := not_hasNull_append (not_hasNull_append hcall hrate) hend
  exact (hcomment.andThen (clean_line hline)).andThen (carries_showing _)

theorem not_hasNull_repr (n : Int) : ¬ HasNull n.repr :=
  not_hasNull_of_class rfl (isGraphic_of_mem_repr n)

theorem clean_trainEpoch : Clean trainEpoch := by
  have htrain := clean_line (not_hasNull_given rfl : ¬ HasNull "model.train()")
  have hstep : Clean trainStep := by
    apply clean_all
    intro t ht
    simp only [List.mem_cons, List.not_mem_nil, or_false] at ht
    rcases ht with rfl | rfl | rfl | rfl | rfl | rfl <;> exact not_hasNull_given rfl
  have hloop := hstep.block (not_hasNull_given rfl : ¬ HasNull "for x, y in train_loader:")
  have hprint := clean_line
    (not_hasNull_given rfl : ¬ HasNull "print(f\"epoch \x7bepoch + 1\x7d: ok\")")
  exact (htrain.andThen hloop).andThen hprint

theorem clean_trainer (node : Node) : Clean (trainer node) := by
  have hsize := not_hasNull_repr (Params.count node.params "batch_size" 64)
  have hepochs := not_hasNull_repr (Params.count node.params "epochs" 3)
  have htrain : ¬ HasNull "train_loader = DataLoader(train_ds, batch_size=" := not_hasNull_given rfl
  have hshuffle : ¬ HasNull ", shuffle=True)  # TODO" := not_hasNull_given rfl
  have hval : ¬ HasNull "val_loader = DataLoader(val_ds, batch_size=" := not_hasNull_given rfl
  have htodo : ¬ HasNull ")  # TODO" := not_hasNull_given rfl
  have hfor : ¬ HasNull "for epoch in range(" := not_hasNull_given rfl
  have hcolon : ¬ HasNull "):" := not_hasNull_given rfl
  have hloaders := ((clean_comment (not_hasNull_given rfl : ¬ HasNull "Dataloaders")).andThen
    (clean_line (not_hasNull_append (not_hasNull_append htrain hsize) hshuffle))).andThen
    (clean_line (not_hasNull_append (not_hasNull_append hval hsize) htodo))
  have hcomment := clean_comment (not_hasNull_given rfl : ¬ HasNull "Train loop")
  have hloop := clean_trainEpoch.block (not_hasNull_append (not_hasNull_append hfor hepochs) hcolon)
  have htraining := ((hloaders.andThen clean_blank).andThen hcomment).andThen hloop
  exact (htraining.andThen (carries_showing _)).andThen (carries_showing _)

theorem clean_metric : Clean metric := by
  have hcomment := clean_comment
    (not_hasNull_given rfl : ¬ HasNull "Metrics (evaluate on val_loader)")
  have hstart : Clean (all ["model.eval()", "correct = 0", "total = 0"]) := by
    apply clean_all
    intro t ht
    simp only [List.mem_cons, List.not_mem_nil, or_false] at ht
    rcases ht with rfl | rfl | rfl <;> exact not_hasNull_given rfl
  have hstep : Clean metricStep := by
    apply clean_all
    intro t ht
    simp only [List.mem_cons, List.not_mem_nil, or_false] at ht
    rcases ht with rfl | rfl | rfl | rfl | rfl <;> exact not_hasNull_given rfl
  have hloop := (hstep.block (not_hasNull_given rfl : ¬ HasNull "for x, y in val_loader:")).block
    (not_hasNull_given rfl : ¬ HasNull "with torch.no_grad():")
  have hprint := clean_line (not_hasNull_given rfl :
    ¬ HasNull "print(\"val/accuracy:\", correct / total if total else 0.0)")
  exact (((hcomment.andThen hstart).andThen hloop).andThen hprint).andThen clean_blank

/-! ## Null characters of the stages -/

/-- Each of several nodes carries what it carries alone. -/
theorem carries_each (stage : Stage) {condition : Node → Prop}
    (h : ∀ (index : Nat) (node : Node), Carries (single stage node index) (condition node))
    (nodes : List Node) :
    ∀ start : Nat, Carries (each stage start nodes) (∃ node ∈ nodes, condition node) := by
  induction nodes with
  | nil => exact fun _ => carries_nothing.of_iff (by simp)
  | cons node rest ih =>
    intro start
    refine ((h start node).andThen (ih (start + 1))).of_iff ?_
    rw [List.exists_mem_cons_iff]

/-- Each of several nodes is clean if it is so alone. -/
theorem clean_each (stage : Stage) (h : ∀ (index : Nat) (node : Node), Clean (single stage node index))
    (nodes : List Node) (start : Nat) : Clean (each stage start nodes) :=
  (carries_each stage h nodes start).of_iff (by simp)

theorem carries_first (stage : Stage) {condition : Node → Prop}
    (h : ∀ node, Carries (single stage node 0) (condition node)) (nodes : List Node) :
    Carries (first stage nodes) (∃ node ∈ nodes.head?, condition node) := by
  cases nodes with
  | nil => exact carries_nothing.of_iff (by simp)
  | cons node rest => exact ((h node).andThen clean_blank).of_iff (by simp)

/-- The nodes of a stage whose null characters get into a script: all data
nodes and the first model node, by their labels. -/
def NullIn (nodes : List Node) : Stage → Prop
  | .data => ∃ node ∈ nodes, HasNull node.label
  | .model => ∃ node ∈ nodes.head?, HasNull node.label
  | _ => False

theorem carries_group (nodes : List Node) (stage : Stage) :
    Carries (group stage nodes) (NullIn nodes stage) := by
  have hfirst : ∀ stage, (∀ node, Clean (single stage node 0)) → Clean (first stage nodes) :=
    fun stage h => (carries_first stage h nodes).of_iff (by simp)
  cases stage with
  | data =>
    have heach := carries_each .data (fun index node => carries_data node index) nodes 0
    exact (heach.andThen clean_blank).of_iff (iff_of_eq (or_false _))
  | transform =>
    have htitle := clean_comment (not_hasNull_given rfl : ¬ HasNull "Transforms")
    have heach := clean_each .transform (fun index node => clean_transform node index) nodes 0
    exact (htitle.andThen heach).andThen clean_blank
  | split => exact hfirst .split clean_split
  | model => exact carries_first .model carries_model nodes
  | loss => exact hfirst .loss fun _ => clean_loss
  | optimizer => exact hfirst .optimizer clean_optimizer
  | trainer => exact hfirst .trainer clean_trainer
  | metric =>
    cases nodes with
    | nil => exact carries_nothing
    | cons node rest => exact clean_metric
  | composite => exact carries_nothing

end Fragment

/-! ## Whole scripts -/

namespace Script

open Text Writer Fragment

theorem carries_fragment (nodes : List Node) (stage : Stage) :
    Carries (fun w => fragment nodes w stage) (NullIn (nodes.filter (·.is stage)) stage) := by
  rcases hgroup : nodes.filter (·.is stage) with _ | ⟨node, rest⟩
  · have hnone : (fun w => fragment nodes w stage) = fun w => w := by
      funext w
      simp [fragment, hgroup]
    rw [hnone, hgroup]
    exact carries_nothing.of_iff (by cases stage <;> simp [NullIn])
  · have hsome : (fun w => fragment nodes w stage) = Fragment.group stage (node :: rest) := by
      funext w
      simp [fragment, hgroup]
    rw [hsome, hgroup]
    exact carries_group (node :: rest) stage

theorem carries_fragments (nodes : List Node) (some : List Stage) :
    Carries (fun w => some.foldl (fragment nodes) w)
      (∃ stage ∈ some, NullIn (nodes.filter (·.is stage)) stage) := by
  induction some with
  | nil => exact carries_nothing.of_iff (by simp)
  | cons stage rest ih =>
    refine ((carries_fragment nodes stage).andThen ih).of_iff ?_
    rw [List.exists_mem_cons_iff]

theorem carries_header (name : Text) : Carries (all (header name)) (HasNull name) := by
  have hfirst : ¬ HasNull "# Auto-generated by mlboard" := not_hasNull_given rfl
  have htitle : ¬ HasNull "# Project: " := not_hasNull_given rfl
  have hcode : ¬ ∃ t ∈ (header name).drop 2, HasNull t := by
    rintro ⟨t, ht, hnull⟩
    simp only [header, List.drop_succ_cons, List.drop_zero, List.mem_cons, List.not_mem_nil,
      or_false] at ht
    rcases ht with rfl | rfl | rfl | rfl | rfl | rfl | rfl | rfl <;>
      exact absurd hnull (not_hasNull_given rfl)
  refine (carries_all (header name)).of_iff ?_
  unfold header at hcode ⊢
  rw [List.drop_succ_cons, List.drop_succ_cons, List.drop_zero] at hcode
  rw [List.exists_mem_cons_iff, List.exists_mem_cons_iff, hasNull_append, hasNull_oneLine]
  simp only [htitle, hcode, hfirst, false_or, or_false]

theorem clean_footer (name : Text) : Clean (all (footer name)) := by
  have hsave : ¬ HasNull "torch.save(model.state_dict(), " := not_hasNull_given rfl
  have hquoted : ¬ HasNull (Text.ofList (doubleQuoted (artifactName name).toList)) := by
    apply not_hasNull_of_class (p := isGraphic) rfl
    rw [Text.toList_ofList]
    exact isGraphic_of_mem_doubleQuoted _
  have hend : ¬ HasNull ")" := not_hasNull_given rfl
  have hcomment := clean_comment (not_hasNull_given rfl : ¬ HasNull "Save model")
  exact hcomment.andThen (clean_line (not_hasNull_append (not_hasNull_append hsave hquoted) hend))

/-- A null character gets into a script from the project name, from the label
of a data node, and from the label of the first model node, and from nowhere
else. -/
theorem hasNull_draft_iff (g : Graph) :
    HasNull (draft g) ↔ HasNull g.name ∨ (∃ node ∈ g.orderedOf .data, HasNull node.label) ∨
      ∃ node ∈ (g.orderedOf .model).head?, HasNull node.label := by
  have hname : HasNull (nameOrDefault g.name) ↔ HasNull g.name := by
    unfold nameOrDefault
    split
    · rename_i hempty
      rw [Text.isEmpty_iff.mp hempty]
      exact iff_of_false (by decide) (by decide)
    · rfl
  have hwrite := ((carries_header (nameOrDefault g.name)).andThen
    (carries_fragments g.ordered stages)).andThen (clean_footer (nameOrDefault g.name))
  have hstages : (∃ stage ∈ stages, NullIn (g.orderedOf stage) stage) ↔
      (∃ node ∈ g.orderedOf .data, HasNull node.label) ∨
        ∃ node ∈ (g.orderedOf .model).head?, HasNull node.label := by
    unfold stages
    simp only [List.exists_mem_cons_iff, List.not_mem_nil, false_and, exists_false, NullIn, false_or,
      or_false]
  refine hwrite.hasNull_joined.trans ?_
  rw [or_false, hname]
  exact or_congr_right hstages

end Script

end PipelineBoard
