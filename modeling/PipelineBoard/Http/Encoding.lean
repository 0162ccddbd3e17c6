-- The encoding of a body of JSON text. JSON text begins with ASCII, so the
-- zeros among its first bytes tell whether a character takes one byte or more,
-- or units of two or four bytes.
import PipelineBoard.Json.Reader

namespace PipelineBoard

namespace Http

/-! ## Encodings -/

/-- How bytes write text. In wider units the first byte counts most or least. -/
inductive Encoding where
  | bytes
  | pairs (firstHighest : Bool)
  | quads (firstHighest : Bool)
deriving DecidableEq

/-- The encoding that the first bytes of a JSON text show. -/
def Encoding.ofFirst : List UInt8 → Encoding
  | [a, b] => if a = 0 then .pairs true else if b = 0 then .pairs false else .bytes
  | a :: b :: c :: d :: _ =>
    if a = 0 then if b = 0 then .quads true else .pairs true
    else if b = 0 then if c = 0 && d = 0 then .quads false else .pairs false
    else .bytes
  | _ => .bytes

/-! ## Units -/

/-- The number of a unit. -/
def unitValue (firstHighest : Bool) (bytes : List UInt8) : Nat :=
  (if firstHighest then bytes else bytes.reverse).foldl (fun n b => 256 * n + b.toNat) 0

/-- The numbers of the units of two bytes; none if the last one is cut short. -/
def pairValues? (firstHighest : Bool) : List UInt8 → Option (List Nat)
  | [] => some []
  | a :: b :: rest =>
    (pairValues? firstHighest rest).map (unitValue firstHighest [a, b] :: ·)
  | _ => none

/-- The numbers of the units of four bytes; none if the last one is cut short. -/
def quadValues? (firstHighest : Bool) : List UInt8 → Option (List Nat)
  | [] => some []
  | a :: b :: c :: d :: rest =>
    (quadValues? firstHighest rest).map (unitValue firstHighest [a, b, c, d] :: ·)
  | _ => none

/-- The text of code points, none of which may be beyond the last one. -/
def ofCodePoints? (points : List Nat) : Option Text :=
  if points.all (· ≤ 0x10ffff) then
    some (Text.ofList (points.map Point.ofNat))
  else none

/-- The text that the bytes of a body write. A mark at the front of UTF-8
text is passed over. -/
def decodeBody? (bytes : List UInt8) : Option Text :=
  match Encoding.ofFirst bytes with
  | .bytes =>
    (Text.ofUtf8? ⟨bytes.toArray⟩).map fun text =>
      if text.toList.head? == some (.scalar '\ufeff') then Text.ofList (text.toList.drop 1) else text
  | .pairs firstHighest =>
    (pairValues? firstHighest bytes).map fun units => Text.ofList (Json.joinPieces (units.map .unit))
  | .quads firstHighest => (quadValues? firstHighest bytes).bind ofCodePoints?

end Http

end PipelineBoard
