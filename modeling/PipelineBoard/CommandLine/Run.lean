-- The command line over a file tree: what it prints, the files that it
-- leaves, and its status. Standard output and files take UTF-8, and text without
-- a form in it ends the run at once; standard error takes any text.
import PipelineBoard.CommandLine.Arguments
import PipelineBoard.CommandLine.Log
import PipelineBoard.Script.FileName
import PipelineBoard.Snapshot.File

namespace PipelineBoard

namespace CommandLine

/-! ## Messages -/

def usage : Text :=
  "usage: compile_from_json [-h] [--out DIR] [--print] [--strict]\n" ++
  "                         [--project-name NAME] [--verbose]\n" ++
  "                         snapshot.json\n"

def errorLine (text : Text) : Text := "[error] " ++ text ++ "\n"

/-- The lines that tell what is being built. -/
def progress (g : Graph) : Text :=
  "[compile_from_json] project : " ++ g.name ++ "\n" ++
  "[compile_from_json] nodes   : " ++ g.nodes.length.repr ++ "\n" ++
  "[compile_from_json] edges   : " ++ g.edges.length.repr ++ "\n"

/-! ## From the content of a file to a script -/

/-- What no message covers and ends the program at once. -/
inductive Crash where
  | storage (error : StorageError)
  | notUtf8
  | tooManyDigits (count : Nat)
  | write (error : Numeral.WriteError)
  | noDirectory
  | notEncodable

/-- How the work on a snapshot ends: with a status, with a script to write at
a path, or at once. -/
inductive Ending where
  | status (code : Nat)
  | write (path : Path) (source : Text)
  | crash (crash : Crash)

/-- What the work on a snapshot has printed and logged, and how it ends. -/
structure Work where
  stdout : Text := ""
  told : Text := ""
  notices : List Snapshot.Notice := []
  records : List Record := []
  ending : Ending

/-- The graph under the name that the options give, unless it is empty. -/
def named (options : Options) (g : Graph) : Graph :=
  match options.projectName with
  | none => g
  | some name => if name.isEmpty then g else g.rename name

/-- Prints a text after what was printed before, and ends with status 0. -/
def printed (before text : Text) : Work :=
  if text.isEncodable then { stdout := before ++ text, ending := .status 0 }
  else { stdout := before, ending := .crash .notEncodable }

/-- Builds a graph: prints its errors or its script, or asks for the script
to be written. -/
def deliver (options : Options) (g : Graph) : Work :=
  match g.build with
  | .error e => { stdout := progress g, ending := .crash (.write e) }
  | .ok build =>
    if !build.ok then
      { stdout := progress g ++ build.text, told := Text.join (build.errors.map errorLine),
        ending := .status 1 }
    else if options.print then printed (progress g) build.source
    else
      match options.out with
      | none => { stdout := progress g, ending := .crash .noDirectory }
      | some directory =>
        let path := (Path.ofString directory).child (Script.fileName g.name)
        { stdout := progress g, ending := .write path build.source }

/-- What the work on a graph that was loaded puts on record. A name that cannot be
printed ends it before the graph is built. -/
def recordsOn (options : Options) (loaded : Graph) : List Record :=
  let g := named options loaded
  let steps := if g.name.isEncodable then stepRecords g else []
  if options.verbose then loadRecord loaded :: steps else []

/-- The work on a graph that was loaded. Its name is printed before it is built. -/
def workOn (options : Options) (notices : List Snapshot.Notice) (loaded : Graph) : Work :=
  let g := named options loaded
  let w : Work :=
    if g.name.isEncodable then deliver options g else { ending := .crash .notEncodable }
  { w with notices, records := recordsOn options loaded }

/-- The work on the content of a snapshot file. -/
def work (options : Options) (content : ByteArray) : Work :=
  match Snapshot.readContent content with
  | .error .notUtf8 => { ending := .crash .notUtf8 }
  | .error (.json (.tooManyDigits count)) => { ending := .crash (.tooManyDigits count) }
  | .error (.json e) =>
    { told := errorLine ("Invalid JSON: " ++ e.message), ending := .status 1 }
  | .ok value =>
    let inspection := Snapshot.read options.strict value
    match inspection.result with
    | .error e =>
      { told := errorLine ("Schema validation failed: " ++ e.message),
        notices := inspection.notices, ending := .status 1 }
    | .ok g => workOn options inspection.notices g

/-- The line for a snapshot that is not there. -/
def notThere (path : Path) : Text := errorLine ("File not found: " ++ path.text)

/-- The line for a script that was written. -/
def wrote (path : Path) : Text := "[compile_from_json] wrote   : " ++ path.text ++ "\n"

/-- The line for a script that could not be written. -/
def notWritten (path : Path) (message : Text) : Text :=
  errorLine ("Could not write " ++ path.text ++ ": " ++ message)

/-! ## The whole run -/

/-- What a run leaves: its output, what it tells on standard error and what it
logs there before that, the file tree, and its status unless it ends at once. -/
structure Outcome where
  stdout : Text := ""
  told : Text := ""
  notices : List Snapshot.Notice := []
  records : List Record := []
  storage : Storage
  status : Except Crash Nat

/-- What a run logs. -/
def Outcome.log (o : Outcome) (site : Site) : Text :=
  Text.join (o.notices.map (noticeText site)) ++ Text.join (o.records.map Record.line)

/-- What a run leaves on standard error. -/
def Outcome.stderr (o : Outcome) (site : Site) : Text := o.log site ++ o.told

/-- Writes a file. A file whose text has no form in UTF-8 is left empty. -/
def writeText (storage : Storage) (path : Path) (source : Text) : Storage × Except Crash Unit :=
  match source.utf8? with
  | some bytes =>
    let (storage, result) := storage.write path bytes
    (storage, result.mapError .storage)
  | none =>
    match storage.write path "".toUTF8 with
    | (storage, .error e) => (storage, .error (.storage e))
    | (storage, .ok _) => (storage, .error .notEncodable)

/-- Makes the directory of a path and writes a file there. -/
def save (storage : Storage) (path : Path) (source : Text) : Storage × Except Crash Unit :=
  match storage.makeDirectories { path with names := path.names.dropLast } with
  | (storage, .error e) => (storage, .error (.storage e))
  | (storage, .ok _) => writeText storage path source

/-- What a run leaves that ends at once. -/
def crashed (storage : Storage) (w : Work) (crash : Crash) : Outcome :=
  ⟨w.stdout, w.told, w.notices, w.records, storage, .error crash⟩

/-- Ends a run as the work on the snapshot asks for. A path that the system
cannot be asked about is no error of the system, and ends the run at once. -/
def finish (storage : Storage) (w : Work) : Outcome :=
  match w.ending with
  | .status code => ⟨w.stdout, w.told, w.notices, w.records, storage, .ok code⟩
  | .crash crash => crashed storage w crash
  | .write path source =>
    match save storage path source with
    | (storage, .ok _) =>
      if (wrote path).isEncodable then
        ⟨w.stdout ++ wrote path, w.told, w.notices, w.records, storage, .ok 0⟩
      else crashed storage w .notEncodable
    | (storage, .error (.storage e)) =>
      if e.fault.isUnaskable then crashed storage w (.storage e)
      else
        ⟨w.stdout, w.told ++ notWritten path e.message, w.notices, w.records, storage, .ok 1⟩
    | (storage, .error crash) => crashed storage w crash

/-- Builds the snapshot that the options name. -/
def build (storage : Storage) (options : Options) : Outcome :=
  let path := Path.ofString options.snapshot
  match storage.isThere path with
  | .error e => { storage, status := .error (.storage e) }
  | .ok false => { told := notThere path, storage, status := .ok 1 }
  | .ok true =>
    match storage.read path with
    | .error e => { storage, status := .error (.storage e) }
    | .ok content => finish storage (work options content)

/-- What the program prints for arguments that it refuses. -/
def refusal (e : UsageError) : Text :=
  usage ++ "compile_from_json: error: " ++ e.message ++ "\n"

/-- Runs the program on a file tree. -/
def run (storage : Storage) (arguments : List Text) : Outcome :=
  match readArguments arguments with
  | .error e => { told := refusal e, storage, status := .ok 2 }
  | .ok .help => { stdout := usage, storage, status := .ok 0 }
  | .ok (.build options) => build storage options

end CommandLine

end PipelineBoard
