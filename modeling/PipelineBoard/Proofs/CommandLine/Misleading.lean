-- Which runs log a message that looks like an error: those with a notice, or a name on
-- record, that goes on behind a line end as an error does.
import PipelineBoard.Proofs.CommandLine.Runs
import PipelineBoard.Proofs.Json.Printer

namespace PipelineBoard

open Text

/-! ## Texts on one line -/

namespace CommandLine

/-! ## Records of a run -/

end CommandLine

end PipelineBoard
