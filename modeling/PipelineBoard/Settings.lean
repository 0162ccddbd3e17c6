-- The settings of the server, read from environment variables.
import PipelineBoard.Graph.Basic
import PipelineBoard.Number.Numeral
import PipelineBoard.Text.Uppercase

namespace PipelineBoard

/-- Where the server listens, what it logs, and the graph that it starts with. -/
structure Settings where
  host : Text := "0.0.0.0"
  port : Int := 3001
  logLevel : Text := "INFO"
  projectName : Text := defaultName
  seedDemo : Bool := true

namespace Settings

/-- The words for yes, in any case. No letter beyond ASCII has one of their
letters as its whole lower-case form. -/
def isYes (text : Text) : Bool :=
  let word := Text.ofList ((Text.trimBy Text.isBlank text.toList).map (Point.map Char.toLower))
  (["1", "true", "yes", "on"] : List Text).contains word

/-- The port that a text gives, or the default one. -/
def readPort (default : Int) : Option Text → Except Numeral.IntegerError Int
  | none => .ok default
  | some text => Numeral.readInteger text

/-- The settings that environment variables give. A port must be an integer. -/
def ofEnvironment (env : List (String × Text)) : Except Numeral.IntegerError Settings :=
  let default : Settings := {}
  (readPort default.port (env.lookup "MLBOARD_PORT")).map fun port => {
    host := (env.lookup "MLBOARD_HOST").getD default.host
    port
    logLevel := Text.uppercase ((env.lookup "MLBOARD_LOG_LEVEL").getD default.logLevel)
    projectName := nameOrDefault ((env.lookup "MLBOARD_PROJECT_NAME").getD "")
    seedDemo := isYes ((env.lookup "MLBOARD_SEED_DEMO").getD "true") }

end Settings

end PipelineBoard
