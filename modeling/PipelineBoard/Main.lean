-- The command line on the files of the machine.
import PipelineBoard.CommandLine.Run

namespace PipelineBoard

namespace CommandLine

/-! ## Text -/

/-- A text as a terminal shows it: half of a pair that stands alone is shown by
its number. -/
def terminal (t : Text) : String :=
  String.ofList (t.toList.flatMap fun
    | .scalar c => [c]
    | .lone half => '\\' :: 'u' :: (Text.hexDigits 4 (0xd800 + half)).filterMap Point.char?)

/-! ## Files -/

/-- The fault that an error of the machine stands for. -/
def faultOf : IO.Error → Option PathFault
  | .noFileOrDirectory .. => some .notFound
  | .alreadyExists .. => some .alreadyThere
  | .inappropriateType _ code _ => some (if code = 20 then .notDirectory else .isDirectory)
  | .invalidArgument _ code _ => if code = 36 then some .nameTooLong else none
  | _ => none

/-- The text of an error of the machine at a path. -/
def errorText (path : Path) (e : IO.Error) : Text :=
  match faultOf e with
  | some fault => StorageError.message ⟨fault, path.text⟩
  | none => toString e

/-- Makes the directory of a path and writes a file there. -/
def saveFile (path : Path) (source : Text) : IO (Except IO.Error Unit) := do
  try
    IO.FS.createDirAll (terminal ({ path with names := path.names.dropLast } : Path).text)
    IO.FS.writeFile (terminal path.text) (source.string?.getD "")
    return .ok ()
  catch e => return .error e

/-- The content of the file at a path. -/
def loadFile (path : Path) : IO (Except IO.Error ByteArray) := do
  try
    let content ← IO.FS.readBinFile (terminal path.text)
    return .ok content
  catch e => return .error e

/-! ## The run -/

/-- The site of warnings on this machine. -/
def site : Site := ⟨"PipelineBoard", none⟩

/-- Prints what the work on a snapshot has printed, and does what it asks for. -/
def finishWork (w : Work) : IO UInt32 := do
  for notice in w.notices do
    IO.eprint (terminal (noticeText site notice))
  for record in w.records do
    IO.eprint (terminal record.line)
  IO.print (terminal w.stdout)
  IO.eprint (terminal w.told)
  match w.ending with
  | .status code => return code.toUInt32
  | .crash .notUtf8 => throw (IO.userError "the snapshot is not UTF-8")
  | .crash (.tooManyDigits count) =>
    throw (IO.userError (terminal (Numeral.tooManyDigitsText count)))
  | .crash (.write e) => throw (IO.userError (terminal e.message))
  | .crash .noDirectory => throw (IO.userError "there is no directory for the script")
  | .crash .notEncodable => throw (IO.userError "the text has no form in UTF-8")
  | .crash (.storage e) => throw (IO.userError (terminal e.message))
  | .write path source =>
    match ← saveFile path source with
    | .ok _ => do
      if !source.isEncodable then throw (IO.userError "the script has no form in UTF-8")
      IO.print (terminal (wrote path))
      return 0
    | .error e => do
      IO.eprint (terminal (notWritten path (errorText path e)))
      return 1

/-- Builds the snapshot that the options name. -/
def buildFile (options : Options) : IO UInt32 := do
  let path := Path.ofString options.snapshot
  match ← loadFile path with
  | .ok content => finishWork (work options content)
  | .error e =>
    if faultOf e = some .notFound || faultOf e = some .notDirectory then
      IO.eprint (terminal (notThere path))
      return 1
    else throw e

end CommandLine

end PipelineBoard

open PipelineBoard PipelineBoard.CommandLine in
/-- Builds a snapshot file as the arguments say. -/
def main (arguments : List String) : IO UInt32 :=
  match readArguments (arguments.map Text.ofString) with
  | .error e => do
    IO.eprint (terminal (refusal e))
    return 2
  | .ok .help => do
    IO.print (terminal usage)
    return 0
  | .ok (.build options) => buildFile options
