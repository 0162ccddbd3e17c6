-- Snapshots loaded from the path of a file, and built there and then.
import PipelineBoard.Build
import PipelineBoard.Snapshot.File

namespace PipelineBoard

namespace Snapshot

/-- Why a file gives no graph. -/
inductive LoadError where
  | storage (error : StorageError)
  | content (error : ContentError)
  | schema (error : SchemaError)
  | write (error : Numeral.WriteError)

/-- What was loaded, with the notices that were given on the way. -/
structure Loaded (α : Type) where
  notices : List Notice
  result : Except LoadError α

/-- The graph of the content of a snapshot file. -/
def loadContent (content : ByteArray) (strict : Bool) : Loaded Graph :=
  match readContent content with
  | .error e => ⟨[], .error (.content e)⟩
  | .ok value =>
    let inspection := read strict value
    ⟨inspection.notices, inspection.result.mapError .schema⟩

/-- The graph of the snapshot file at a path. -/
def load (storage : Storage) (path : Path) (strict : Bool) : Loaded Graph :=
  match storage.read path with
  | .error e => ⟨[], .error (.storage e)⟩
  | .ok content => loadContent content strict

/-- Builds the snapshot file at a path, under another name if one is given. -/
def buildFile (storage : Storage) (path : Path) (strict : Bool) (name : Option Text) :
    Loaded Build :=
  let loaded := load storage path strict
  ⟨loaded.notices, loaded.result.bind fun g => (g.buildAs name).mapError .write⟩

end Snapshot

end PipelineBoard
