-- JSON values. Objects keep the order of their fields, and integers and real
-- numbers are kept apart.
import PipelineBoard.Number.Binary64
import PipelineBoard.Text.Basic

namespace PipelineBoard

/-- A JSON value. A real number may be infinite or undefined, as a snapshot
from outside may hold one. -/
inductive Json where
  | null
  | bool (value : Bool)
  | int (value : Int)
  | real (value : Binary64)
  | string (value : Text)
  | list (items : List Json)
  | object (fields : List (Text × Json))

/-- The fields of an object, in order. -/
abbrev Fields := List (Text × Json)

/-! ## Fields -/

namespace Fields

/-- The value of a field. -/
def get? (fields : Fields) (key : Text) : Option Json := fields.lookup key

/-- The fields with one more: a key that is there keeps its place and takes
the new value, and a new key goes to the end. -/
def set (fields : Fields) (key : Text) (value : Json) : Fields :=
  match fields with
  | [] => [(key, value)]
  | (k, v) :: rest => if k = key then (k, value) :: rest else (k, v) :: set rest key value

/-- The fields overridden by others, which are set one by one. -/
def overriddenBy (fields others : Fields) : Fields :=
  others.foldl (fun merged field => merged.set field.1 field.2) fields

theorem get?_set_self (fields : Fields) (key : Text) (value : Json) :
    (fields.set key value).get? key = some value := by
  induction fields with
  | nil => simp [set, get?]
  | cons field rest ih =>
    obtain ⟨k, v⟩ := field
    by_cases h : k = key
    · simp [set, get?, h]
    · have h' : (key == k) = false := by simpa using fun e => h e.symm
      simpa [set, get?, List.lookup_cons, h, h'] using ih

theorem get?_set_ne (fields : Fields) {key other : Text} (value : Json) (h : other ≠ key) :
    (fields.set key value).get? other = fields.get? other := by
  have h' : (other == key) = false := by simpa using h
  induction fields with
  | nil => simp [set, get?, List.lookup_cons, h']
  | cons field rest ih =>
    obtain ⟨k, v⟩ := field
    by_cases hk : k = key
    · subst hk
      simp [set, get?, List.lookup_cons, h']
    · simp only [set, hk, if_false, get?, List.lookup_cons]
      split
      · rfl
      · exact ih

end Fields

/-! ## Values that params may hold -/

namespace Json

/-- The fields of an object. -/
def fields? : Json → Option Fields
  | .object fields => some fields
  | _ => none

/-- A number is an integer or a finite real; a boolean is no number. -/
def isNumber : Json → Bool
  | .int _ => true
  | .real d => d.isFinite
  | _ => false

mutual

/-- A value that params may hold has no real number that is infinite or
undefined, at any depth. -/
def isPlain : Json → Bool
  | .real d => d.isFinite
  | .list items => allPlain items
  | .object fields => allFieldsPlain fields
  | _ => true

def allPlain : List Json → Bool
  | [] => true
  | item :: rest => item.isPlain && allPlain rest

def allFieldsPlain : List (Text × Json) → Bool
  | [] => true
  | (_, value) :: rest => value.isPlain && allFieldsPlain rest

end

/-! ## Values that have a form in UTF-8 -/

mutual

/-- Every text of the value has a form in UTF-8, at any depth and keys included. -/
def isEncodable : Json → Bool
  | .string s => s.isEncodable
  | .list items => allEncodable items
  | .object fields => allFieldsEncodable fields
  | _ => true

def allEncodable : List Json → Bool
  | [] => true
  | item :: rest => item.isEncodable && allEncodable rest

def allFieldsEncodable : List (Text × Json) → Bool
  | [] => true
  | (key, value) :: rest => key.isEncodable && value.isEncodable && allFieldsEncodable rest

end

end Json

end PipelineBoard
