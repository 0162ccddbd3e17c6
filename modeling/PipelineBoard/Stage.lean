-- The stages of a training pipeline.
import PipelineBoard.Text.Basic

namespace PipelineBoard

/-- What a node of a pipeline does. -/
inductive Stage where
  | data
  | transform
  | split
  | model
  | loss
  | optimizer
  | metric
  | trainer
  | composite
deriving DecidableEq

namespace Stage

/-- Every stage, in the order that lists of stages show. -/
def all : List Stage :=
  [.data, .transform, .split, .model, .loss, .optimizer, .metric, .trainer, .composite]

def name : Stage → Text
  | .data => "Data"
  | .transform => "Transform"
  | .split => "Split"
  | .model => "Model"
  | .loss => "Loss"
  | .optimizer => "Optimizer"
  | .metric => "Metric"
  | .trainer => "Trainer"
  | .composite => "Composite"

/-- The stage of a name; other names name none. -/
def ofName? (name : Text) : Option Stage := all.find? fun stage => stage.name = name

/-- The stages that a pipeline needs, in the order that their lack is
reported. -/
def required : List Stage := [.model, .loss, .optimizer]

theorem ofName?_name (stage : Stage) : ofName? stage.name = some stage := by
  cases stage <;> decide

end Stage

end PipelineBoard
