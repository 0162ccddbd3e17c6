-- The code of a script: which lines of it are neither blank nor comments, and
-- where the texts of a graph stand in them.
import PipelineBoard.Proofs.Json.Printer
import PipelineBoard.Proofs.Script.Pieces
import PipelineBoard.Script.Emit

namespace PipelineBoard

namespace Script

open Text

/-! ## The lines of code -/

/-- The imports and the choice of the device. -/
def headerCode : List Text := [
  "import torch",
  "import torch.nn as nn",
  "import torch.optim as optim",
  "from torch.utils.data import DataLoader",
  "device = \"cuda\" if torch.cuda.is_available() else \"cpu\""]

/-- One line for each data node. -/
def dataCode (nodes : List Node) : List Text :=
  nodes.mapIdx fun index node =>
    identifier node.label "dataset" index ++ " = None  # TODO: load your dataset here"

/-- One line for each transform node. -/
def transformCode (nodes : List Node) : List Text :=
  nodes.mapIdx fun index node =>
    identifier node.label "transform" index ++ " = nn.Identity()  # TODO: implement transform"

def splitCode : List Text := [
  "train_ds, val_ds, test_ds = None, None, None  # TODO: split your dataset according to params"]

def modelCode : List Text := [
  "class GeneratedModel(nn.Module):",
  "    def __init__(self):",
  "        super().__init__()",
  "        self.net = nn.Sequential(nn.Flatten(), nn.Linear(784, 128), nn.ReLU(), nn.Linear(128, 10))",
  "    def forward(self, x):",
  "        return self.net(x)",
  "model = GeneratedModel().to(device)"]

def lossCode : List Text := ["criterion = nn.CrossEntropyLoss()"]

def optimizerCode (node : Node) : List Text := [
  "optimizer = optim.Adam(model.parameters(), lr=" ++
    (Params.numberOr node.params "lr" Fragment.defaultRate).literal ++ ")"]

/-- What one epoch runs. -/
def epochCode : List Text := [
  "    model.train()",
  "    for x, y in train_loader:",
  "        x, y = x.to(device), y.to(device)",
  "        optimizer.zero_grad()",
  "        out = model(x)",
  "        loss = criterion(out, y)",
  "        loss.backward()",
  "        optimizer.step()",
  "    print(f\"epoch \x7bepoch + 1\x7d: ok\")"]

/-- The loaders and the training loop. -/
def trainerCode (node : Node) : List Text :=
  ("train_loader = DataLoader(train_ds, batch_size=" ++
    (Params.count node.params "batch_size" 64).repr ++ ", shuffle=True)  # TODO") ::
  ("val_loader = DataLoader(val_ds, batch_size=" ++
    (Params.count node.params "batch_size" 64).repr ++ ")  # TODO") ::
  ("for epoch in range(" ++ (Params.count node.params "epochs" 3).repr ++ "):") :: epochCode

/-- The accuracy over the validation set. -/
def metricCode : List Text := [
  "model.eval()",
  "correct = 0",
  "total = 0",
  "with torch.no_grad():",
  "    for x, y in val_loader:",
  "        x, y = x.to(device), y.to(device)",
  "        out = model(x)",
  "        pred = out.argmax(dim=1)",
  "        correct += (pred == y).sum().item()",
  "        total += y.size(0)",
  "print(\"val/accuracy:\", correct / total if total else 0.0)"]

/-- The line that saves the model under the project's name. -/
def footerCode (name : Text) : List Text := [
  "torch.save(model.state_dict(), " ++
    Text.ofList (doubleQuoted (artifactName name).toList) ++ ")"]

/-- The lines that the nodes of a stage print, in the order of their
dependencies. -/
def stageCode (nodes : List Node) : Stage → List Text
  | .data => dataCode nodes
  | .transform => transformCode nodes
  | .split => if nodes.isEmpty then [] else splitCode
  | .model => if nodes.isEmpty then [] else modelCode
  | .loss => if nodes.isEmpty then [] else lossCode
  | .optimizer => nodes.head?.elim [] optimizerCode
  | .trainer => nodes.head?.elim [] trainerCode
  | .metric => if nodes.isEmpty then [] else metricCode
  | .composite => []

end Script

/-! ## The code of one node -/

namespace Fragment

open Text Writer Script

theorem onOneLine_orElse {text other : Text} (h1 : OnOneLine text) (h2 : OnOneLine other) :
    OnOneLine (orElse text other) := by
  unfold orElse
  split
  · exact h2
  · exact h1

theorem prints_note (params : Fields) : Prints (note params) [] :=
  (prints_comments (Params.comment_of_mem_commentLines params)).andThen (prints_showing _)

theorem codeLine_identifier (label : Text) {fallback : Text}
    (hfallback : ∀ c ∈ fallback.toList, isWord c = true) (index : Nat) :
    CodeLine (identifier label fallback index) :=
  codeLine_of_word (identifier_ne_empty label index) (isWord_of_mem_identifier label hfallback index)

theorem prints_data (node : Node) (index : Nat) :
    Prints (data node index) [
      identifier node.label "dataset" index ++ " = None  # TODO: load your dataset here"] := by
  have hname : CodeLine (identifier node.label "dataset" index) :=
    codeLine_identifier node.label (forall_mem_given rfl) index
  have htitle : OnOneLine "Data: " := onOneLine_given rfl
  have hlabel := onOneLine_orElse (onOneLine_oneLine node.label) hname.1
  have htodo : OnOneLine " = None  # TODO: load your dataset here" := onOneLine_given rfl
  have hcomment := prints_comment _ (onOneLine_append.mpr ⟨htitle, hlabel⟩)
  have hline := prints_line _ (hname.append htodo)
  exact (hcomment.andThen hline).andThen (prints_note node.params)

theorem prints_transform (node : Node) (index : Nat) :
    Prints (transform node index) [
      identifier node.label "transform" index ++
        " = nn.Identity()  # TODO: implement transform"] := by
  have hname : CodeLine (identifier node.label "transform" index) :=
    codeLine_identifier node.label (forall_mem_given rfl) index
  have htodo : OnOneLine " = nn.Identity()  # TODO: implement transform" := onOneLine_given rfl
  exact (prints_line _ (hname.append htodo)).andThen (prints_note node.params)

theorem prints_split (node : Node) : Prints (split node) splitCode := by
  have hcomment := prints_comment "Split" (onOneLine_given rfl)
  have hline := prints_line
    "train_ds, val_ds, test_ds = None, None, None  # TODO: split your dataset according to params"
    (codeLine_given rfl rfl rfl)
  exact (hcomment.andThen hline).andThen (prints_note _)

theorem prints_modelBody : Prints modelBody [
    "def __init__(self):",
    "    super().__init__()",
    "    self.net = nn.Sequential(nn.Flatten(), nn.Linear(784, 128), nn.ReLU(), nn.Linear(128, 10))",
    "def forward(self, x):",
    "    return self.net(x)"] := by
  have hsuper := prints_line "super().__init__()" (codeLine_given rfl rfl rfl)
  have htodo := prints_comment "TODO: build layers based on params" (onOneLine_given rfl)
  have hnet := prints_line
    "self.net = nn.Sequential(nn.Flatten(), nn.Linear(784, 128), nn.ReLU(), nn.Linear(128, 10))"
    (codeLine_given rfl rfl rfl)
  have hinit := ((hsuper.andThen htodo).andThen hnet).block "def __init__(self):"
    (codeLine_given rfl rfl rfl)
  have hreturn := prints_line "return self.net(x)" (codeLine_given rfl rfl rfl)
  have hforward := hreturn.block "def forward(self, x):" (codeLine_given rfl rfl rfl)
  refine Prints.of_eq ((hinit.andThen prints_blank).andThen hforward) ?_
  simp [indented_given]

theorem prints_model (node : Node) : Prints (model node) modelCode := by
  have htitle : OnOneLine "Model: " := onOneLine_given rfl
  have hlabel := onOneLine_orElse (onOneLine_oneLine node.label)
    (onOneLine_given rfl : OnOneLine "Model")
  have hcomment := prints_comment _ (onOneLine_append.mpr ⟨htitle, hlabel⟩)
  have hclass := prints_modelBody.block "class GeneratedModel(nn.Module):"
    (codeLine_given rfl rfl rfl)
  have hbefore := ((hcomment.andThen hclass).andThen prints_blank).andThen prints_blank
  have hmodel := prints_line "model = GeneratedModel().to(device)" (codeLine_given rfl rfl rfl)
  refine Prints.of_eq ((hbefore.andThen hmodel).andThen (prints_note node.params)) ?_
  simp [indented_given, modelCode]

theorem prints_loss : Prints loss lossCode := by
  have hcomment := prints_comment "Loss" (onOneLine_given rfl)
  exact hcomment.andThen
    (prints_line "criterion = nn.CrossEntropyLoss()" (codeLine_given rfl rfl rfl))

/-- The number of a key is a number if its default is one. -/
theorem isNumber_numberOr (params : Fields) (key : Text) {default : Json}
    (h : default.isNumber = true) : (Params.numberOr params key default).isNumber = true := by
  unfold Params.numberOr
  simp only
  split
  · assumption
  · exact h

theorem prints_optimizer (node : Node) : Prints (optimizer node) (optimizerCode node) := by
  have hcomment := prints_comment "Optimizer" (onOneLine_given rfl)
  have hcall : CodeLine "optimizer = optim.Adam(model.parameters(), lr=" :=
    codeLine_given rfl rfl rfl
  have hrate : OnOneLine (Params.numberOr node.params "lr" defaultRate).literal :=
    Json.onOneLine_literal_of_isNumber (isNumber_numberOr _ _ (by decide +kernel))
  have hend : OnOneLine ")" := onOneLine_given rfl
  exact (hcomment.andThen (prints_line _ ((hcall.append hrate).append hend))).andThen
    (prints_showing _)

theorem onOneLine_repr (n : Int) : OnOneLine n.repr :=
  onOneLine_of_class (by decide) (by decide) (isGraphic_of_mem_repr n)

theorem prints_trainStep : Prints trainStep [
    "x, y = x.to(device), y.to(device)", "optimizer.zero_grad()", "out = model(x)",
    "loss = criterion(out, y)", "loss.backward()", "optimizer.step()"] := by
  apply prints_all
  intro t ht
  simp only [List.mem_cons, List.not_mem_nil, or_false] at ht
  rcases ht with rfl | rfl | rfl | rfl | rfl | rfl <;> exact codeLine_given rfl rfl rfl

theorem prints_trainEpoch :
    ∃ code, Prints trainEpoch code ∧ code.map (indented 1) = epochCode := by
  have htrain := prints_line "model.train()" (codeLine_given rfl rfl rfl)
  have hloop := prints_trainStep.block "for x, y in train_loader:" (codeLine_given rfl rfl rfl)
  have hprint := prints_line "print(f\"epoch \x7bepoch + 1\x7d: ok\")" (codeLine_given rfl rfl rfl)
  refine ⟨_, (htrain.andThen hloop).andThen hprint, ?_⟩
  simp [indented_given, epochCode]

theorem prints_trainer (node : Node) : Prints (trainer node) (trainerCode node) := by
  have hsize := onOneLine_repr (Params.count node.params "batch_size" 64)
  have hepochs := onOneLine_repr (Params.count node.params "epochs" 3)
  have htrain : CodeLine "train_loader = DataLoader(train_ds, batch_size=" :=
    codeLine_given rfl rfl rfl
  have hshuffle : OnOneLine ", shuffle=True)  # TODO" := onOneLine_given rfl
  have hval : CodeLine "val_loader = DataLoader(val_ds, batch_size=" := codeLine_given rfl rfl rfl
  have htodo : OnOneLine ")  # TODO" := onOneLine_given rfl
  have hfor : CodeLine "for epoch in range(" := codeLine_given rfl rfl rfl
  have hcolon : OnOneLine "):" := onOneLine_given rfl
  have hloaders := ((prints_comment "Dataloaders" (onOneLine_given rfl)).andThen
    (prints_line _ ((htrain.append hsize).append hshuffle))).andThen
    (prints_line _ ((hval.append hsize).append htodo))
  have hcomment := prints_comment "Train loop" (onOneLine_given rfl)
  obtain ⟨code, hepoch, hcode⟩ := prints_trainEpoch
  have hloop := hepoch.block _ ((hfor.append hepochs).append hcolon)
  rw [hcode] at hloop
  have htraining := ((hloaders.andThen prints_blank).andThen hcomment).andThen hloop
  exact (htraining.andThen (prints_showing _)).andThen (prints_showing _)

theorem prints_metricStep : Prints metricStep [
    "x, y = x.to(device), y.to(device)", "out = model(x)", "pred = out.argmax(dim=1)",
    "correct += (pred == y).sum().item()", "total += y.size(0)"] := by
  apply prints_all
  intro t ht
  simp only [List.mem_cons, List.not_mem_nil, or_false] at ht
  rcases ht with rfl | rfl | rfl | rfl | rfl <;> exact codeLine_given rfl rfl rfl

theorem prints_metric : Prints metric metricCode := by
  have hcomment := prints_comment "Metrics (evaluate on val_loader)" (onOneLine_given rfl)
  have heval := prints_line "model.eval()" (codeLine_given rfl rfl rfl)
  have hcorrect := prints_line "correct = 0" (codeLine_given rfl rfl rfl)
  have htotal := prints_line "total = 0" (codeLine_given rfl rfl rfl)
  have hloop := (prints_metricStep.block "for x, y in val_loader:" (codeLine_given rfl rfl rfl)).block
    "with torch.no_grad():" (codeLine_given rfl rfl rfl)
  have hprint := prints_line "print(\"val/accuracy:\", correct / total if total else 0.0)"
    (codeLine_given rfl rfl rfl)
  have hbefore := ((hcomment.andThen heval).andThen hcorrect).andThen htotal
  refine Prints.of_eq (((hbefore.andThen hloop).andThen hprint).andThen prints_blank) ?_
  simp [indented_given, metricCode]

end Fragment

end PipelineBoard
