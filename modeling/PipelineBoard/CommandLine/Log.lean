-- The log of a run: the notices of reading a snapshot, which are given as
-- warnings too, and with the option for it a record of every step.
import PipelineBoard.Build
import PipelineBoard.Snapshot.Inspection

namespace PipelineBoard

namespace CommandLine

/-! ## Records -/

/-- How much a record matters. -/
inductive Level where
  | debug
  | info
  | warning
deriving DecidableEq

def Level.title : Level → Text
  | .debug => "DEBUG"
  | .info => "INFO"
  | .warning => "WARNING"

/-- The parts of the program that keep a log. -/
inductive Part where
  | schema
  | deserialiser
  | scheduler
  | validator
  | emitter
  | compiler
deriving DecidableEq

def Part.title : Part → Text
  | .schema => "mlboard.compiler.schema"
  | .deserialiser => "mlboard.compiler.deserialiser"
  | .scheduler => "mlboard.compiler.scheduler"
  | .validator => "mlboard.compiler.validator"
  | .emitter => "mlboard.compiler.emitter"
  | .compiler => "mlboard.compiler"

/-- A record of the log, with the part of the program that gives it. -/
structure Record where
  level : Level
  part : Part
  message : Text

/-- What stands in front of the message of a record. -/
def Record.heading (r : Record) : Text := r.level.title ++ " " ++ r.part.title ++ ": "

def Record.line (r : Record) : Text := r.heading ++ r.message ++ "\n"

/-! ## Notices -/

/-- Where the reading of snapshots stands in the program, as warnings tell it:
the place, and the code there if it is at hand. -/
structure Site where
  place : Text
  code : Option Text

/-- The code of the site as a warning shows it. -/
def Site.codeLine (site : Site) : Text :=
  match site.code with
  | none => ""
  | some code => "  " ++ code ++ "\n"

/-- A warning from the site. No two notices of a snapshot say the same, and so
each is given. -/
def Site.warning (site : Site) (message : Text) : Text :=
  site.place ++ ": UserWarning: " ++ message ++ "\n" ++ site.codeLine

def noticeRecord (notice : Snapshot.Notice) : Record :=
  ⟨.warning, .schema, notice.message⟩

/-- A notice is logged, and given as a warning. -/
def noticeText (site : Site) (notice : Snapshot.Notice) : Text :=
  (noticeRecord notice).line ++ site.warning notice.message

/-! ## Steps -/

/-- A graph was loaded. -/
def loadRecord (g : Graph) : Record :=
  ⟨.debug, .deserialiser, "Loaded " ++ g.shown⟩

/-- The order of a graph lacks nodes. -/
def orderRecords (g : Graph) : List Record :=
  if g.order.length < g.nodes.length then
    [⟨.debug, .scheduler, "Ordered " ++ g.order.length.repr ++ " of " ++
      g.nodes.length.repr ++ " nodes; the rest are blocked"⟩]
  else []

/-- A graph was checked. -/
def checkRecord (g : Graph) (problems : List Problem) : Record :=
  let told : Text :=
    if problems.isEmpty then " is valid"
    else
      let errors := problems.map fun problem => Text.shown problem.message
      " failed validation: [" ++ Text.intercalate ", " errors ++ "]"
  ⟨.debug, .validator, g.shown ++ told⟩

/-- The stages whose fragments are written, up to one that fails. -/
def fragmentRecords (nodes : List Node) (w : Writer) : List Stage → List Record
  | [] => []
  | stage :: rest =>
    let group := nodes.filter (·.is stage)
    if w.failed then []
    else if group.isEmpty then fragmentRecords nodes w rest
    else
      ⟨.debug, .emitter, "Emitting " ++ stage.name ++ " fragment for " ++
          group.length.repr ++ " node(s)"⟩ ::
        fragmentRecords nodes (Script.fragment nodes w stage) rest

/-- What the build of a graph came to, if it came to an end. -/
def buildRecords (g : Graph) : Except Numeral.WriteError Build → List Record
  | .error _ => []
  | .ok build =>
    let told : Text :=
      if build.ok then
        "Built '" ++ g.name ++ "' (" ++ g.nodes.length.repr ++ " nodes, " ++
          g.edges.length.repr ++ " edges)"
      else "Build of '" ++ g.name ++ "' rejected: " ++ build.errors.length.repr ++ " error(s)"
    [⟨.info, .compiler, told⟩]

/-- The steps of building a graph. -/
def stepRecords (g : Graph) : List Record :=
  let problems := g.problems
  let fragments :=
    if problems.isEmpty then
      let nodes := g.order.filterMap g.find?
      fragmentRecords nodes (Writer.all (Script.header (nameOrDefault g.name)) {})
        Script.stages
    else []
  orderRecords g ++ [checkRecord g problems] ++ fragments ++ buildRecords g g.build

end CommandLine

end PipelineBoard
