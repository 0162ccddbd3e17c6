-- Writing JSON values: over several lines with indentation, and as the
-- literal that a script would hold. A value with an integer of too many digits
-- is not written; its layout says where each part would stand.
import PipelineBoard.Json.Basic
import PipelineBoard.Number.Numeral

namespace PipelineBoard

namespace Json

/-! ## Values that are written -/

mutual

/-- No integer of the value has too many digits, at any depth. -/
def isShort : Json → Bool
  | .int value => Numeral.isShort value
  | .list items => allShort items
  | .object fields => allFieldsShort fields
  | _ => true

def allShort : List Json → Bool
  | [] => true
  | item :: rest => item.isShort && allShort rest

def allFieldsShort : List (Text × Json) → Bool
  | [] => true
  | (_, value) :: rest => value.isShort && allFieldsShort rest

end

/-! ## Over several lines -/

/-- A line feed and two spaces for each level. -/
def newLine (depth : Nat) : List Point := '\n' :: List.replicate (2 * depth) ' '

mutual

/-- The value over several lines, one for each item and field; the first
line is at the given depth already. -/
def render (depth : Nat) : Json → List Point
  | .null => Text.toList "null"
  | .bool value => if value then Text.toList "true" else Text.toList "false"
  | .int value => Text.toList value.repr
  | .real value => Decimal.text .json value
  | .string value => Text.doubleQuoted value.toList
  | .list items =>
    if items.isEmpty then [.scalar '[', .scalar ']']
    else .scalar '[' :: renderItems (depth + 1) items ++ newLine depth ++ [.scalar ']']
  | .object fields =>
    if fields.isEmpty then [.scalar '{', .scalar '}']
    else .scalar '{' :: renderFields (depth + 1) fields ++ newLine depth ++ [.scalar '}']

def renderItems (depth : Nat) : List Json → List Point
  | [] => []
  | item :: rest =>
    newLine depth ++ render depth item ++ (if rest.isEmpty then [] else [.scalar ',']) ++
      renderItems depth rest

def renderFields (depth : Nat) : List (Text × Json) → List Point
  | [] => []
  | (key, value) :: rest =>
    newLine depth ++ Text.doubleQuoted key.toList ++ .scalar ':' :: .scalar ' ' :: render depth value ++
      (if rest.isEmpty then [] else [.scalar ',']) ++ renderFields depth rest

end

/-! ## As a literal -/

mutual

/-- The value as a script's literal, with texts as a message shows them. -/
def shownChars : Json → List Point
  | .null => Text.toList "None"
  | .bool value => if value then Text.toList "True" else Text.toList "False"
  | .int value => Text.toList value.repr
  | .real value => Decimal.text .literal value
  | .string value => Text.shownChars value.toList
  | .list items => .scalar '[' :: shownItems items ++ [.scalar ']']
  | .object fields => .scalar '{' :: shownFields fields ++ [.scalar '}']

def shownItems : List Json → List Point
  | [] => []
  | item :: rest =>
    shownChars item ++ (if rest.isEmpty then [] else [.scalar ',', .scalar ' ']) ++ shownItems rest

def shownFields : List (Text × Json) → List Point
  | [] => []
  | (key, value) :: rest =>
    Text.shownChars key.toList ++ .scalar ':' :: .scalar ' ' :: shownChars value ++
      (if rest.isEmpty then [] else [.scalar ',', .scalar ' ']) ++ shownFields rest

end

/-- The literal of a value in a script: a text stands between double quotes,
and any other value as it is shown. -/
def literal : Json → Text
  | .string value => Text.ofList (Text.doubleQuoted value.toList)
  | value => Text.ofList (shownChars value)

end Json

end PipelineBoard
