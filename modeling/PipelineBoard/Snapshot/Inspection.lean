-- An inspection of a snapshot: the notices that it gave in order, and what it
-- found or the error that ended it.
import PipelineBoard.Text.Basic

namespace PipelineBoard

namespace Snapshot

/-! ## Places in a snapshot -/

/-- Where in a snapshot something was found. -/
inductive Spot where
  | root
  | node (index : Nat)
  | edge (index : Nat)

def Spot.text : Spot → Text
  | .root => "snapshot root"
  | .node index => "nodes[" ++ index.repr ++ "]"
  | .edge index => "edges[" ++ index.repr ++ "]"

/-- The two ends of an edge. -/
inductive End where
  | source
  | target

def End.text : End → Text
  | .source => "source"
  | .target => "target"

/-! ## Notices and errors -/

/-- What a snapshot may hold but a build will not use. -/
inductive Notice where
  | unknownKind (index : Nat) (kind : Text)
  | danglingEnd (index : Nat) (which : End) (id : Text)

def Notice.message : Notice → Text
  | .unknownKind index kind =>
    (Spot.node index).text ++ ": unknown node type '" ++ kind ++
      "' (node will be ignored by the compiler)"
  | .danglingEnd index which id =>
    (Spot.edge index).text ++ ": " ++ which.text ++ " '" ++ id ++ "' not found in nodes"

/-- Why a value is no snapshot. A strict inspection refuses what it would
otherwise give notice of. -/
inductive SchemaError where
  | notObject
  | missing (spot : Spot) (field : Text)
  | notList (field : Text)
  | nameNotText
  | itemNotObject (spot : Spot)
  | notText (spot : Spot) (field : Text)
  | fieldNotObject (spot : Spot) (field : Text)
  | paramsNotPlain (spot : Spot)
  | duplicateId (spot : Spot) (id : Text)
  | refused (notice : Notice)

/-- What the items of a list are called. -/
def Spot.noun : Spot → Text
  | .root => "snapshot"
  | .node _ => "node"
  | .edge _ => "edge"

def SchemaError.message : SchemaError → Text
  | .notObject => "snapshot must be a JSON object at the top level"
  | .missing spot field => spot.text ++ ": missing required field '" ++ field ++ "'"
  | .notList field => field ++ " must be a list"
  | .nameNotText => "projectName must be a string"
  | .itemNotObject spot => spot.text ++ ": each " ++ spot.noun ++ " must be a JSON object"
  | .notText spot field => spot.text ++ "." ++ field ++ " must be a string"
  | .fieldNotObject spot field => spot.text ++ "." ++ field ++ " must be an object"
  | .paramsNotPlain spot => spot.text ++ ".params must contain only JSON values"
  | .duplicateId spot id => spot.text ++ ": duplicate node id '" ++ id ++ "'"
  | .refused notice => notice.message

/-! ## Inspections -/

/-- The notices of an inspection, kept even if it ends in an error, and its
result. -/
structure Inspection (α : Type) where
  notices : List Notice
  result : Except SchemaError α

namespace Inspection

/-- A result without notices. -/
def found {α : Type} (value : α) : Inspection α := ⟨[], .ok value⟩

/-- An error without notices. -/
def fail {α : Type} (error : SchemaError) : Inspection α := ⟨[], .error error⟩

/-- Goes on with what was found. -/
def andThen {α β : Type} (first : Inspection α) (next : α → Inspection β) : Inspection β :=
  match first.result with
  | .error error => ⟨first.notices, .error error⟩
  | .ok value => ⟨first.notices ++ (next value).notices, (next value).result⟩

instance : Monad Inspection where
  pure := found
  bind := andThen

/-- Gives notice, or fails if the inspection is strict. -/
def report (strict : Bool) (notice : Notice) : Inspection Unit :=
  if strict then fail (.refused notice) else ⟨[notice], .ok ()⟩

/-- What is there, or an error. -/
def expect {α : Type} (error : SchemaError) : Option α → Inspection α
  | some value => found value
  | none => fail error

/-- Goes on if a condition holds. -/
def demand (condition : Bool) (error : SchemaError) : Inspection Unit :=
  if condition then found () else fail error

theorem pure_eq {α : Type} (value : α) : (pure value : Inspection α) = found value := rfl

theorem bind_eq {α β : Type} (first : Inspection α) (next : α → Inspection β) :
    (first >>= next) = first.andThen next := rfl

end Inspection

end Snapshot

end PipelineBoard
