-- The routes of the server: what a path names, and which methods it takes.
import PipelineBoard.Storage.Path

namespace PipelineBoard

namespace Http

/-- What a path names. -/
inductive Route where
  | health
  | graph
  | canvas
  | project
  | nodes
  | node (id : String)
  | position (id : String)
  | edges
  | edge (index : String)
  | composites
  | build
  | script
  | manual
  | description

namespace Route

/-- The methods that a route takes. -/
def methods : Route → List Text
  | .health => ["GET"]
  | .graph => ["GET", "PUT"]
  | .canvas => ["PUT"]
  | .project => ["PUT"]
  | .nodes => ["POST"]
  | .node _ => ["PATCH", "DELETE"]
  | .position _ => ["PUT"]
  | .edges => ["POST"]
  | .edge _ => ["DELETE"]
  | .composites => ["POST"]
  | .build => ["POST"]
  | .script => ["GET"]
  | .manual => ["GET", "HEAD"]
  | .description => ["GET", "HEAD"]

/-- The route of the segments of a path whose last segment is fixed. -/
def ofFixed? : List String → Option Route
  | ["", "health"] => some .health
  | ["", "api", "graph"] => some .graph
  | ["", "api", "graph", "canvas"] => some .canvas
  | ["", "api", "graph", "project"] => some .project
  | ["", "api", "graph", "nodes"] => some .nodes
  | ["", "api", "graph", "nodes", id, "position"] =>
    if id.isEmpty then none else some (.position id)
  | ["", "api", "graph", "edges"] => some .edges
  | ["", "api", "graph", "composites"] => some .composites
  | ["", "api", "graph", "build"] => some .build
  | ["", "api", "graph", "script"] => some .script
  | ["", "docs"] => some .manual
  | ["", "docs", "oauth2-redirect"] => some .manual
  | ["", "redoc"] => some .manual
  | ["", "openapi.json"] => some .description
  | _ => none

/-- The route of the segments of a path whose last segment is given. -/
def ofOpen? : List String → Option Route
  | ["", "api", "graph", "nodes", id] => if id.isEmpty then none else some (.node id)
  | ["", "api", "graph", "edges", index] => if index.isEmpty then none else some (.edge index)
  | _ => none

/-- The characters without a line feed at the end. -/
def chopFeed (cs : List Char) : List Char :=
  if cs.getLast? == some '\n' then cs.dropLast else cs

/-- The segments of a path between its slashes. -/
def segments (path : List Char) : List String := (Path.cutAt '/' path).map String.ofList

/-- The route of a decoded path. A line feed at the very end belongs to a
segment that is given, and is passed over behind a fixed one. -/
def ofPath? (path : String) : Option Route :=
  match ofOpen? (segments path.toList) with
  | some route => some route
  | none => ofFixed? (segments (chopFeed path.toList))

/-- The route that a path with slashes at its end is sent on to. -/
def redirect? (path : String) : Option Route :=
  let cs := path.toList
  let kept := (cs.reverse.dropWhile (· == '/')).reverse
  if path ≠ "/" && kept.length < cs.length then ofPath? (String.ofList kept) else none

end Route

end Http

end PipelineBoard
