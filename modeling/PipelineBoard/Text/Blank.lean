-- Blank characters and line breaks: text without the blanks at its ends,
-- text cut into lines, and text folded onto one line.
import PipelineBoard.Text.Basic

namespace PipelineBoard.Text

/-! ## Blanks -/

/-- The characters that count as blank at the ends of a text: the white
space of Unicode and the four ASCII separators below the space. -/
def isBlank (c : Point) : Bool :=
  let n := c.toNat
  (9 ≤ n && n ≤ 13) || (28 ≤ n && n ≤ 32) || n == 0x85 || n == 0xa0 || n == 0x1680 ||
    (0x2000 ≤ n && n ≤ 0x200a) || n == 0x2028 || n == 0x2029 || n == 0x202f || n == 0x205f ||
    n == 0x3000

/-- The text without the characters of a class at its end. -/
def dropTail (p : Point → Bool) (cs : List Point) : List Point :=
  (cs.reverse.dropWhile p).reverse

/-- The text without the characters of a class at both ends. -/
def trimBy (p : Point → Bool) (cs : List Point) : List Point :=
  dropTail p (cs.dropWhile p)

/-- The text without the blanks at both ends. -/
def trim (s : Text) : Text := Text.ofList (trimBy isBlank s.toList)

/-- A blank text has no character but blanks. -/
def isAllBlank (s : Text) : Bool := s.toList.all isBlank

/-! ## Lines -/

/-- The characters that end a line. -/
def isLineBreak (c : Point) : Bool :=
  let n := c.toNat
  (10 ≤ n && n ≤ 13) || (28 ≤ n && n ≤ 30) || n == 0x85 || n == 0x2028 || n == 0x2029

/-- Free text on one line: each line break becomes a space, a carriage
return with its line feed counts as one break, and a break at the very end
is dropped. -/
def foldLines : List Point → List Point
  | [] => []
  | .scalar '\r' :: .scalar '\n' :: rest => if rest.isEmpty then [] else ' ' :: foldLines rest
  | c :: rest =>
    if isLineBreak c then
      if rest.isEmpty then [] else ' ' :: foldLines rest
    else c :: foldLines rest

/-- Free text on one line, so that it stays inside a comment. -/
def oneLine (s : Text) : Text := Text.ofList (foldLines s.toList)

/-- The pieces between the line feeds of a text: one more than there are
line feeds. -/
def cutAtFeeds : List Point → List (List Point)
  | [] => [[]]
  | c :: rest =>
    if c = '\n' then [] :: cutAtFeeds rest
    else match cutAtFeeds rest with
      | [] => [[c]]
      | piece :: pieces => (c :: piece) :: pieces

/-- Every way to end a line becomes a line feed, as a text file is read. -/
def unifyFeeds : List Point → List Point
  | [] => []
  | .scalar '\r' :: .scalar '\n' :: rest => '\n' :: unifyFeeds rest
  | .scalar '\r' :: rest => '\n' :: unifyFeeds rest
  | c :: rest => c :: unifyFeeds rest

/-! ## First facts -/

/-- A cut text has at least one piece. -/
theorem cutAtFeeds_ne_nil (cs : List Point) : cutAtFeeds cs ≠ [] := by
  cases cs with
  | nil => simp [cutAtFeeds]
  | cons c rest =>
    simp only [cutAtFeeds]
    split
    · simp
    · split <;> simp

end PipelineBoard.Text
