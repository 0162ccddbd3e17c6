-- The header that names the file which a script is saved to.
import PipelineBoard.Text.Percent

namespace PipelineBoard

namespace Http

/-- The file name between quotes if no character of it needs encoding, and
percent-encoded otherwise. -/
def attachment (fileName : String) : String :=
  let encoded := Text.percentEncode fileName
  if encoded = fileName then "attachment; filename=\"" ++ fileName ++ "\""
  else "attachment; filename*=utf-8''" ++ encoded

/-- The header for a file name that has a form in UTF-8. -/
def disposition (fileName : Text) : Option String := fileName.string?.map attachment

end Http

end PipelineBoard
