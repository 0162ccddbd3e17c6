-- Snapshots in files: bytes, then text, then JSON, then a graph.
import PipelineBoard.Json.Reader
import PipelineBoard.Snapshot.Reader
import PipelineBoard.Storage.Basic

namespace PipelineBoard

namespace Snapshot

/-- Why the content of a file is no JSON value. -/
inductive ContentError where
  | notUtf8
  | json (error : Json.ReadError)

/-- The JSON value of a text file. Every way to end a line counts as a line
feed. -/
def readContent (content : ByteArray) : Except ContentError Json :=
  match Text.ofUtf8? content with
  | none => .error .notUtf8
  | some text =>
    match Json.read (Text.ofList (Text.unifyFeeds text.toList)) with
    | .ok value => .ok value
    | .error e => .error (.json e)

end Snapshot

end PipelineBoard
