-- The fragments of a script: what the nodes of each stage write, in the order
-- of their dependencies.
import PipelineBoard.Graph.Basic
import PipelineBoard.Script.Params
import PipelineBoard.Script.Writer
import PipelineBoard.Text.Identifier

namespace PipelineBoard

namespace Fragment

/-! ## Data and transforms -/

/-- A text, or another one if it is empty. -/
def orElse (text other : Text) : Text := if text.isEmpty then other else text

/-- Writes params as a comment. -/
def note (params : Fields) (w : Writer) : Writer :=
  (w.all (Params.commentLines params)).showing (.object params)

/-- A data node names a dataset after its label. -/
def data (node : Node) (index : Int) (w : Writer) : Writer :=
  let name := Text.identifier node.label "dataset" index
  let w := w.comment ("Data: " ++ orElse (Text.oneLine node.label) name)
  let w := w.line (name ++ " = None  # TODO: load your dataset here")
  note node.params w

/-- A transform node names a transform after its label. -/
def transform (node : Node) (index : Int) (w : Writer) : Writer :=
  let name := Text.identifier node.label "transform" index
  let w := w.line (name ++ " = nn.Identity()  # TODO: implement transform")
  note node.params w

/-! ## The split -/

/-- The parts of a dataset when a split says nothing else. -/
def defaultSplit : Fields := [
  ("train", .real (Decimal.toBinary false 8 (-1))), ("val", .real (Decimal.toBinary false 1 (-1))),
  ("test", .real (Decimal.toBinary false 1 (-1))), ("shuffle", .bool true)]

def isNull : Json → Bool
  | .null => true
  | _ => false

/-- The default parts overridden by the params that are not null. -/
def splitParams (params : Fields) : Fields :=
  defaultSplit.overriddenBy (params.filter fun field => !isNull field.2)

def split (node : Node) (w : Writer) : Writer :=
  let w := w.comment "Split"
  let w := w.line
    "train_ds, val_ds, test_ds = None, None, None  # TODO: split your dataset according to params"
  note (splitParams node.params) w

/-! ## Model, loss and optimizer -/

def modelInit (w : Writer) : Writer :=
  let w := w.line "super().__init__()"
  let w := w.comment "TODO: build layers based on params"
  w.line
    "self.net = nn.Sequential(nn.Flatten(), nn.Linear(784, 128), nn.ReLU(), nn.Linear(128, 10))"

def modelBody (w : Writer) : Writer :=
  let w := w.block "def __init__(self):" modelInit
  let w := w.blank
  w.block "def forward(self, x):" fun w => w.line "return self.net(x)"

def model (node : Node) (w : Writer) : Writer :=
  let w := w.comment ("Model: " ++ orElse (Text.oneLine node.label) "Model")
  let w := w.block "class GeneratedModel(nn.Module):" modelBody
  let w := w.blank.blank
  let w := w.line "model = GeneratedModel().to(device)"
  note node.params w

def loss (w : Writer) : Writer :=
  (w.comment "Loss").line "criterion = nn.CrossEntropyLoss()"

/-- The learning rate of an optimizer that gives none. -/
def defaultRate : Json := .real (Decimal.toBinary false 1 (-3))

def optimizer (node : Node) (w : Writer) : Writer :=
  let rate := Params.numberOr node.params "lr" defaultRate
  let w := w.comment "Optimizer"
  let w := w.line ("optimizer = optim.Adam(model.parameters(), lr=" ++ rate.literal ++ ")")
  w.showing rate

/-! ## Training and metrics -/

def trainStep (w : Writer) : Writer :=
  w.all ["x, y = x.to(device), y.to(device)", "optimizer.zero_grad()", "out = model(x)",
    "loss = criterion(out, y)", "loss.backward()", "optimizer.step()"]

def trainEpoch (w : Writer) : Writer :=
  let w := w.line "model.train()"
  let w := w.block "for x, y in train_loader:" trainStep
  w.line "print(f\"epoch \x7bepoch + 1\x7d: ok\")"

def trainer (node : Node) (w : Writer) : Writer :=
  let size := Params.count node.params "batch_size" 64
  let epochs := Params.count node.params "epochs" 3
  let w := w.comment "Dataloaders"
  let w := w.line
    ("train_loader = DataLoader(train_ds, batch_size=" ++ size.repr ++ ", shuffle=True)  # TODO")
  let w := w.line ("val_loader = DataLoader(val_ds, batch_size=" ++ size.repr ++ ")  # TODO")
  let w := w.blank
  let w := w.comment "Train loop"
  let w := w.block ("for epoch in range(" ++ epochs.repr ++ "):") trainEpoch
  (w.showing (.int size)).showing (.int epochs)

def metricStep (w : Writer) : Writer :=
  w.all ["x, y = x.to(device), y.to(device)", "out = model(x)", "pred = out.argmax(dim=1)",
    "correct += (pred == y).sum().item()", "total += y.size(0)"]

def metric (w : Writer) : Writer :=
  let w := w.comment "Metrics (evaluate on val_loader)"
  let w := w.all ["model.eval()", "correct = 0", "total = 0"]
  let w := w.block "with torch.no_grad():" fun w => w.block "for x, y in val_loader:" metricStep
  let w := w.line "print(\"val/accuracy:\", correct / total if total else 0.0)"
  w.blank

/-! ## By stage -/

/-- What one node writes for its stage. Metrics and composites write nothing
for one node. -/
def single (stage : Stage) (node : Node) (index : Int) (w : Writer) : Writer :=
  match stage with
  | .data => data node index w
  | .transform => transform node index w
  | .split => split node w
  | .model => model node w
  | .loss => loss w
  | .optimizer => optimizer node w
  | .trainer => trainer node w
  | .metric => w
  | .composite => w

/-- What each of several nodes writes, numbered from an index on. -/
def each (stage : Stage) (index : Int) : List Node → Writer → Writer
  | [], w => w
  | node :: rest, w => each stage (index + 1) rest (single stage node index w)

/-- What the first node writes, and a blank line; the others write nothing. -/
def first (stage : Stage) : List Node → Writer → Writer
  | [], w => w
  | node :: _, w => (single stage node 0 w).blank

/-- What all the nodes of a stage write together. -/
def group (stage : Stage) (nodes : List Node) (w : Writer) : Writer :=
  match stage with
  | .data => (each .data 0 nodes w).blank
  | .transform => (each .transform 0 nodes (w.comment "Transforms")).blank
  | .metric => if nodes.isEmpty then w else metric w
  | .composite => w
  | stage => first stage nodes w

end Fragment

end PipelineBoard
