-- The arguments of the command line. Long options may be shortened as long as
-- they stay unique, and a value may follow an equals sign.
import PipelineBoard.Text.Digit
import PipelineBoard.Text.Quoted

namespace PipelineBoard

namespace CommandLine

/-! ## Options -/

/-- The options by name. -/
inductive Flag where
  | help
  | out
  | print
  | strict
  | projectName
  | verbose
deriving DecidableEq

/-- Every name of an option, in the order that messages list them. -/
def optionNames : List (Text × Flag) := [
  ("-h", .help), ("--help", .help), ("--out", .out), ("--print", .print), ("--strict", .strict),
  ("--project-name", .projectName), ("--verbose", .verbose)]

/-- The name of an option in messages. -/
def Flag.title : Flag → Text
  | .help => "-h/--help"
  | .out => "--out"
  | .print => "--print"
  | .strict => "--strict"
  | .projectName => "--project-name"
  | .verbose => "--verbose"

/-- The option needs a value. -/
def Flag.takesValue : Flag → Bool
  | .out => true
  | .projectName => true
  | _ => false

/-- What the arguments ask for. The directory `out` is missing only if its
option was left without a value. -/
structure Options where
  snapshot : Text
  out : Option Text := some "."
  print : Bool := false
  strict : Bool := false
  projectName : Option Text := none
  verbose : Bool := false

/-- Why arguments are refused. -/
inductive UsageError where
  | ambiguous (argument : Text) (names : List Text)
  | noValue (flag : Flag)
  | ignoredValue (flag : Flag) (value : Text)
  | noSnapshot
  | unrecognized (arguments : List Text)

def UsageError.message : UsageError → Text
  | .ambiguous argument names =>
    "ambiguous option: " ++ argument ++ " could match " ++ Text.intercalate ", " names
  | .noValue flag => "argument " ++ flag.title ++ ": expected one argument"
  | .ignoredValue flag value =>
    "argument " ++ flag.title ++ ": ignored explicit argument " ++ Text.shown value
  | .noSnapshot => "the following arguments are required: snapshot.json"
  | .unrecognized arguments => "unrecognized arguments: " ++ Text.intercalate " " arguments

/-! ## Words -/

/-- An argument by its role: an option with the value behind its equals sign,
the letters that follow `-h` in one argument, an option of no known name, a
value, or the mark that ends the options. -/
inductive Word where
  | option (flag : Flag) (value : Option Text)
  | letters (tail : Text)
  | unknown (text : Text)
  | value (text : Text)
  | mark

/-- A text before its first equals sign, and the text behind it. -/
def cutAtEquals (text : Text) : Text × Option Text :=
  let cs := text.toList
  let before := cs.takeWhile (· != .scalar '=')
  (Text.ofList before,
    match cs.drop before.length with
    | [] => none
    | _ :: value => some (Text.ofList value))

/-- A minus with digits, or with digits around a point, at least one of them
behind it. -/
def isNegativeNumber (text : Text) : Bool :=
  let isDigit c := (Text.digitValue? c).isSome
  match text.toList with
  | .scalar '-' :: rest =>
    let rest := if rest.getLast? == some (.scalar '\n') then rest.dropLast else rest
    match rest.dropWhile isDigit with
    | [] => !rest.isEmpty
    | .scalar '.' :: fraction => !fraction.isEmpty && fraction.all isDigit
    | _ => false
  | _ => false

/-- A word that starts like an option but is none: a negative number or a
text with a space is a value. -/
def strayWord (text : Text) : Word :=
  if isNegativeNumber text || text.toList.contains (.scalar ' ') then .value text else .unknown text

/-- A word that starts with two minus signs and may be a shortened option. -/
def longWord (text : Text) : Except UsageError Word :=
  let (start, value) := cutAtEquals text
  match optionNames.filter fun option => start.toList.isPrefixOf option.1.toList with
  | [] => .ok (strayWord text)
  | [(_, flag)] => .ok (.option flag value)
  | names => .error (.ambiguous text (names.map (·.1)))

/-- The role of an argument before the mark. -/
def readWord (text : Text) : Except UsageError Word :=
  match text.toList with
  | .scalar '-' :: second :: tail =>
    match optionNames.lookup text with
    | some flag => .ok (.option flag none)
    | none =>
      match cutAtEquals text with
      | (name, some value) =>
        match optionNames.lookup name with
        | some flag =>
          .ok (if second = 'h' && !value.isEmpty then .letters value else .option flag (some value))
        | none =>
          if second = '-' then longWord text
          else if second = 'h' then .ok (.letters (Text.ofList tail))
          else .ok (strayWord text)
      | (_, none) =>
        if second = '-' then longWord text
        else if second = 'h' then .ok (.letters (Text.ofList tail))
        else .ok (strayWord text)
  | _ => .ok (.value text)

/-- The roles of the arguments. Behind the mark `--` every argument is a
value. -/
def readWords : List Text → Except UsageError (List Word)
  | [] => .ok []
  | text :: rest =>
    if text = "--" then .ok (.mark :: rest.map Word.value)
    else
      match readWord text with
      | .error e => .error e
      | .ok word => (readWords rest).map (word :: ·)

/-! ## Reading the words -/

/-- What the words before some point ask for. -/
structure Gathered where
  snapshot : Option Text := none
  out : Option Text := some "."
  print : Bool := false
  strict : Bool := false
  projectName : Option Text := none
  verbose : Bool := false
  help : Bool := false
  strays : List Text := []

/-- Notes an option without a value. -/
def Gathered.note (g : Gathered) : Flag → Gathered
  | .help => { g with help := true }
  | .print => { g with print := true }
  | .strict => { g with strict := true }
  | .verbose => { g with verbose := true }
  | .out => g
  | .projectName => g

/-- Notes an option with its value, if it is left with one. -/
def Gathered.noteValue (g : Gathered) (value : Option Text) : Flag → Gathered
  | .out => { g with out := value }
  | .projectName => { g with projectName := value }
  | _ => g

/-- The value behind an equals sign. The mark `--` is no value there either:
it leaves the option without one. -/
def unlessMark (text : Text) : Option Text :=
  if text = "--" then none else some text

/-- Notes an argument that nothing asks for. -/
def Gathered.stray (g : Gathered) (text : Text) : Gathered :=
  { g with strays := g.strays ++ [text] }

/-- Reads the words in order. The first value is the snapshot, and takes a
mark beside it along. Help is given at once; each letter `h` behind `-h` asks
for it again, and any other text there is refused. -/
def gather (g : Gathered) : List Word → Except UsageError Gathered
  | [] => .ok g
  | .option flag none :: rest =>
    if flag.takesValue then
      match rest with
      | .value text :: rest => gather (g.noteValue (some text) flag) rest
      | _ => .error (.noValue flag)
    else if flag = .help then .ok (g.note flag)
    else gather (g.note flag) rest
  | .option flag (some value) :: rest =>
    if flag.takesValue then gather (g.noteValue (unlessMark value) flag) rest
    else .error (.ignoredValue flag value)
  | .letters tail :: _ =>
    match tail.toList.dropWhile (· == .scalar 'h') with
    | [] => .ok (g.note .help)
    | rest => .error (.ignoredValue .help (Text.ofList rest))
  | .unknown text :: rest => gather (g.stray text) rest
  | .mark :: rest =>
    match g.snapshot, rest with
    | none, .value text :: rest => gather { g with snapshot := some text } rest
    | _, rest => gather (g.stray "--") rest
  | .value text :: rest =>
    match g.snapshot with
    | some _ => gather (g.stray text) rest
    | none =>
      match rest with
      | .mark :: rest => gather { g with snapshot := some text } rest
      | rest => gather { g with snapshot := some text } rest

/-- What arguments that are not refused ask for: help, or a build. -/
inductive Request where
  | help
  | build (options : Options)

/-- What the arguments ask for. A missing snapshot is told before arguments
that nothing asks for. -/
def readArguments (arguments : List Text) : Except UsageError Request :=
  match readWords arguments with
  | .error e => .error e
  | .ok words =>
    match gather {} words with
    | .error e => .error e
    | .ok g =>
      if g.help then .ok .help
      else
        match g.snapshot with
        | none => .error .noSnapshot
        | some snapshot =>
          if g.strays.isEmpty then
            .ok (.build ⟨snapshot, g.out, g.print, g.strict, g.projectName, g.verbose⟩)
          else .error (.unrecognized g.strays)

end CommandLine

end PipelineBoard
