-- What a request is addressed to: the path that its target names.
import PipelineBoard.Storage.Path
import PipelineBoard.Text.Percent

namespace PipelineBoard

namespace Http

/-! ## Segments -/

/-- A segment behind the segments before it, the last of them first. One dot
adds nothing; two dots take a segment back, but not the front of the path. -/
def pushSegment (before : List (List Char)) (segment : List Char) : List (List Char) :=
  if segment = ['.'] then before
  else if segment = ['.', '.'] then
    match before with
    | [[]] => [[]]
    | before => before.drop 1
  else segment :: before

/-- The path without its segments of one or two dots. -/
def dropDots (path : List Char) : List Char :=
  ['/'].intercalate ((Path.cutAt '/' path).foldl pushSegment []).reverse

/-! ## Targets -/

/-- A server by its parts: a user, a host and a port. A part that is not
named is empty. -/
structure Authority where
  user : List Char
  host : List Char
  port : List Char

namespace Authority

/-- No server at all. -/
def none : Authority := ⟨[], [], []⟩

def isEmpty (a : Authority) : Bool := a.user.isEmpty && a.host.isEmpty && a.port.isEmpty

/-- The length of the host at the front: what is between brackets, or what is
before a colon. -/
def hostLength (cs : List Char) : Nat :=
  let behind := (cs.reverse.takeWhile (· != ']')).length
  if cs.head? == some '[' && behind < cs.length then cs.length - behind
  else (cs.takeWhile (· != ':')).length

/-- The parts of a server's name. The user ends at the last `@`, and a colon
is in front of the port. -/
def ofChars (cs : List Char) : Authority :=
  let place := (cs.reverse.takeWhile (· != '@')).reverse
  let host := place.take (hostLength place)
  ⟨cs.take (cs.length - place.length - 1), host, place.drop (host.length + 1)⟩

end Authority

/-- A target by its parts. The scheme is empty if the target names none. -/
structure Target where
  scheme : List Char
  authority : Authority
  path : List Char

namespace Target

/-- The target without what follows its path: a query or a fragment. -/
def dropQuery (target : List Char) : List Char :=
  target.takeWhile fun c => c != '?' && c != '#'

/-- The characters of a scheme. -/
def isSchemeChar (c : Char) : Bool := c.isAlphanum || c == '+' || c == '.' || c == '-'

/-- The scheme in front of a colon, and what is behind it. A scheme starts
with a letter; a colon with nothing in front is passed over. -/
def cutScheme (cs : List Char) : List Char × List Char :=
  let scheme := cs.takeWhile isSchemeChar
  match cs.drop scheme.length with
  | ':' :: rest =>
    if scheme.isEmpty || scheme.head?.any Char.isAlpha then (scheme, rest) else ([], cs)
  | _ => ([], cs)

/-- The parts of a target. Two slashes stand in front of a server. -/
def ofChars (cs : List Char) : Target :=
  match cutScheme (dropQuery cs) with
  | (scheme, '/' :: '/' :: rest) =>
    let name := rest.takeWhile (· != '/')
    ⟨scheme, .ofChars name, rest.drop name.length⟩
  | (scheme, path) => ⟨scheme, .none, path⟩

/-- The target is a path alone. -/
def isBare (t : Target) : Bool := t.scheme.isEmpty && t.authority.isEmpty

/-- The target names a server in full. -/
def isAbsolute (t : Target) : Bool := !t.scheme.isEmpty && !t.authority.host.isEmpty

/-- The path on the server, without segments of dots. Unless the target is
absolute, the path gets one slash at its front; if the target is not bare, its
dots are dropped before that, too. -/
def serverPath (t : Target) : List Char :=
  if t.isAbsolute then dropDots t.path
  else
    let path := if t.isBare then t.path else dropDots t.path
    dropDots ('/' :: path.dropWhile (· == '/'))

end Target

/-- The decoded path of a target. Dots that are percent-encoded are part of
their segment. -/
def targetPath (target : String) : String :=
  Text.percentDecode (String.ofList (Target.ofChars target.toList).serverPath)

end Http

end PipelineBoard
