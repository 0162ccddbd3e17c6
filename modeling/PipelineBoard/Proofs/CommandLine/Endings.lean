-- How a run on a snapshot that is there ends: it returns a status that fits what
-- standard error has, unless its log misleads, or it ends at once for a reason.
import PipelineBoard.Proofs.CommandLine.Misleading

namespace PipelineBoard

open Text

namespace CommandLine

/-! ## Returning -/

/-- The run returns 0 and tells nothing, or 1 and tells an error, whatever it logs. -/
inductive Answers (outcome : Outcome) : Prop where
  | done (status : outcome.status = .ok 0) (quiet : outcome.told = "")
  | refused (status : outcome.status = .ok 1) (told : HasErrorLine outcome.told)

theorem Refuses.answers {storage : Storage} {outcome : Outcome} (h : Refuses storage outcome) :
    Answers outcome := .refused h.status h.told

theorem Prints.answers {storage : Storage} {text : Text} {outcome : Outcome}
    (h : Prints storage text outcome) : Answers outcome := .done h.status h.quiet

theorem Saves.answers {storage : Storage} {path : Path} {source before : Text}
    {outcome : Outcome} (h : Saves storage path source before outcome) : Answers outcome := by
  cases h with
  | written status printed quiet => exact .done status quiet
  | failed status printed told => exact .refused status told

section

variable {storage : Storage} {options : Options}

end

end CommandLine

end PipelineBoard
