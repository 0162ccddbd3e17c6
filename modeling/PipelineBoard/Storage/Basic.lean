-- A file tree: directories and files by their places, with the errors of
-- reading, writing and making directories.
import PipelineBoard.Storage.Path
import PipelineBoard.Text.Quoted

namespace PipelineBoard

/-! ## Errors -/

/-- Why a path cannot be used. -/
inductive PathFault where
  | notFound
  | alreadyThere
  | notDirectory
  | isDirectory
  | nameTooLong
  | nullCharacter
  | notEncodable
deriving DecidableEq

/-- The system is not even asked about a path with this fault. -/
def PathFault.isUnaskable : PathFault → Bool
  | .nullCharacter => true
  | .notEncodable => true
  | _ => false

/-- A fault and the path that has it. -/
structure StorageError where
  fault : PathFault
  path : Text

def StorageError.message (e : StorageError) : Text :=
  match e.fault with
  | .notFound => "[Errno 2] No such file or directory: " ++ Text.shown e.path
  | .alreadyThere => "[Errno 17] File exists: " ++ Text.shown e.path
  | .notDirectory => "[Errno 20] Not a directory: " ++ Text.shown e.path
  | .isDirectory => "[Errno 21] Is a directory: " ++ Text.shown e.path
  | .nameTooLong => "[Errno 36] File name too long: " ++ Text.shown e.path
  | .nullCharacter => "embedded null byte"
  | .notEncodable => "surrogates not allowed"

/-! ## The tree -/

/-- What is at a place of the tree. -/
inductive Entry where
  | directory
  | file (content : ByteArray)

/-- A file tree. A place is the list of names from the root; `home` is the
place that relative paths start from. -/
structure Storage where
  home : List Text
  entries : List (List Text × Entry)

namespace Storage

/-- What is at a place; the root is a directory. -/
def entry? (s : Storage) (place : List Text) : Option Entry :=
  if place.isEmpty then some .directory else s.entries.lookup place

/-- The tree with an entry at a place, in place of what is there. -/
def put (s : Storage) (place : List Text) (entry : Entry) : Storage :=
  { s with entries := s.entries.filter (·.1 != place) ++ [(place, entry)] }

/-- A tree with nothing but an empty home. -/
def emptyHome (name : Text) : Storage := ⟨[name], [([name], .directory)]⟩

/-- A code point that stands for bytes of a path: a character, or the half of a
pair that stands for a byte which is no part of a character. -/
def standsForBytes : Point → Bool
  | .scalar _ => true
  | .lone half => 0x480 ≤ half.val && half.val < 0x500

/-- Why the system cannot be asked about a path with this text, if it cannot. -/
def unaskable? (text : Text) : Option PathFault :=
  if !text.toList.all standsForBytes then some .notEncodable
  else if text.toList.contains (.scalar '\x00') then some .nullCharacter
  else none

/-- How many bytes a code point takes on a path. -/
def byteCount : Point → Nat
  | .scalar c => c.utf8Size
  | .lone _ => 1

/-- How many bytes a text takes on a path. -/
def byteSize (t : Text) : Nat := t.toList.foldl (fun size p => size + byteCount p) 0

/-- The longest name, and the longest path, in bytes. -/
def mostNameBytes : Nat := 255
def mostPathBytes : Nat := 4095

/-- The place one name further from a directory, and what is there. -/
def look (s : Storage) (place : List Text) (name : Text) :
    Except PathFault (List Text × Option Entry) :=
  if name = ".." then .ok (place.dropLast, some .directory)
  else if mostNameBytes < byteSize name then .error .nameTooLong
  else .ok (place ++ [name], s.entry? (place ++ [name]))

/-- Follows names from a directory: the place of the last one and what is
there. Every name but the last must be a directory. -/
def follow (s : Storage) (place : List Text) :
    List Text → Except PathFault (List Text × Option Entry)
  | [] => .ok (place, some .directory)
  | [name] => s.look place name
  | name :: rest =>
    match s.look place name with
    | .error fault => .error fault
    | .ok (_, none) => .error .notFound
    | .ok (_, some (.file _)) => .error .notDirectory
    | .ok (place, some .directory) => follow s place rest

/-- The place of a path and what is there. -/
def find (s : Storage) (p : Path) : Except PathFault (List Text × Option Entry) :=
  match unaskable? p.text with
  | some fault => .error fault
  | none =>
    if mostPathBytes < byteSize p.text then .error .nameTooLong
    else s.follow (if p.root.isEmpty then s.home else []) p.names

/-! ## Reading and writing -/

/-- Something is at a path. A path through what is no directory leads
nowhere; a name that is too long is an error. -/
def isThere (s : Storage) (p : Path) : Except StorageError Bool :=
  match s.find p with
  | .ok (_, entry) => .ok entry.isSome
  | .error .nameTooLong => .error ⟨.nameTooLong, p.text⟩
  | .error _ => .ok false

/-- The content of the file at a path. -/
def read (s : Storage) (p : Path) : Except StorageError ByteArray :=
  match s.find p with
  | .error fault => .error ⟨fault, p.text⟩
  | .ok (_, none) => .error ⟨.notFound, p.text⟩
  | .ok (_, some .directory) => .error ⟨.isDirectory, p.text⟩
  | .ok (_, some (.file content)) => .ok content

/-- Writes a file, in place of a file that is there. -/
def write (s : Storage) (p : Path) (content : ByteArray) :
    Storage × Except StorageError Unit :=
  match s.find p with
  | .error fault => (s, .error ⟨fault, p.text⟩)
  | .ok (_, some .directory) => (s, .error ⟨.isDirectory, p.text⟩)
  | .ok (place, _) => (s.put place (.file content), .ok ())

/-- Makes a directory whose parent is there. A directory that is there
already is no error. -/
def makeDirectory (s : Storage) (p : Path) : Storage × Except StorageError Unit :=
  match s.find p with
  | .error fault => (s, .error ⟨fault, p.text⟩)
  | .ok (_, some .directory) => (s, .ok ())
  | .ok (_, some (.file _)) => (s, .error ⟨.alreadyThere, p.text⟩)
  | .ok (place, none) => (s.put place .directory, .ok ())

/-- Makes a directory, and before it the parents that it lacks. The names of
the path are given from the last to the first. -/
def makeWithParents (s : Storage) (root : Text) :
    List Text → Storage × Except StorageError Unit
  | [] => s.makeDirectory ⟨root, []⟩
  | name :: parents =>
    let p : Path := ⟨root, (name :: parents).reverse⟩
    match s.makeDirectory p with
    | (_, .error ⟨.notFound, _⟩) =>
      match makeWithParents s root parents with
      | (s, .error e) => (s, .error e)
      | (s, .ok _) => s.makeDirectory p
    | outcome => outcome

/-- Makes the directory of a path and the parents that it lacks. -/
def makeDirectories (s : Storage) (p : Path) : Storage × Except StorageError Unit :=
  s.makeWithParents p.root p.names.reverse

end Storage

end PipelineBoard
