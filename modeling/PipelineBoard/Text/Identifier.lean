-- Variable names out of free text.
import PipelineBoard.Text.Basic

namespace PipelineBoard.Text

/-! ## Word characters -/

/-- ASCII letters, digits and the underscore make a word. -/
def isWord (c : Point) : Bool := c.is Char.isAlphanum || c == '_'

/-- The text with one underscore for every maximal run of other characters.
`inGap` says that the run before the text has its underscore already. -/
def collapse (inGap : Bool) : List Point → List Point
  | [] => []
  | c :: rest =>
    if isWord c then c :: collapse false rest
    else if inGap then collapse true rest
    else '_' :: collapse true rest

/-- The variable name of a label: the label with its gaps collapsed, and for
an empty label the fallback with the index. -/
def identifier (label fallback : Text) (index : Int) : Text :=
  if label.isEmpty then fallback ++ "_" ++ index.repr
  else Text.ofList (collapse false label.toList)

end PipelineBoard.Text
