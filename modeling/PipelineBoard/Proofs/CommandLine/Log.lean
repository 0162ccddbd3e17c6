-- Error lines on standard error. A run tells its errors in such lines, and a logged
-- message looks like one where it goes on behind a line end as an error does.
import PipelineBoard.CommandLine.Run
import PipelineBoard.Proofs.Text.Lines

namespace PipelineBoard

open Text

namespace CommandLine

/-! ## Error lines -/

/-- A line of the text starts as an error does. -/
def HasErrorLine (text : Text) : Prop :=
  ∃ line ∈ physicalLines text, (Text.toList "[error]") <+: line.toList

instance (text : Text) : Decidable (HasErrorLine text) :=
  inferInstanceAs (Decidable (∃ line ∈ physicalLines text, (Text.toList "[error]") <+: line.toList))

/-- Behind its first line, the text has a line that starts as an error does. -/
def BreaksOff (text : Text) : Prop :=
  ∃ line ∈ (physicalLines text).tail, (Text.toList "[error]") <+: line.toList

/-- An error line is on one side of a line feed. -/
theorem hasErrorLine_feed (s t : Text) :
    HasErrorLine (s ++ "\n" ++ t) ↔ HasErrorLine s ∨ HasErrorLine t := by
  have hline : ∀ line : Text, (Text.toList "[error]") <+: line.toList → line ≠ "" := by
    rintro _ hmark rfl
    exact absurd hmark (by decide)
  unfold HasErrorLine
  rw [← exists_or]
  refine exists_congr fun line => ?_
  rw [← or_and_right]
  exact and_congr_left fun hmark => mem_physicalLines_feed (hline line hmark)

theorem hasErrorLine_append (text rest : Text) : HasErrorLine (errorLine text ++ rest) := by
  have hmark : OnOneLine "[error] " := onOneLine_given rfl
  have hstart : (Text.toList "[error]") <+: (Text.toList "[error] ") := by decide
  obtain ⟨line, hlines⟩ := exists_physicalLines_append hmark (text ++ "\n" ++ rest)
  have htext : errorLine text ++ rest = "[error] " ++ (text ++ "\n" ++ rest) := by
    simp [errorLine, Text.append_assoc]
  refine ⟨"[error] " ++ line, ?_, ?_⟩
  · rw [htext, hlines]
    exact List.mem_cons_self
  · rw [Text.toList_append]
    exact hstart.trans (List.prefix_append _ _)

theorem hasErrorLine_errorLine (text : Text) : HasErrorLine (errorLine text) := by
  rw [← Text.append_empty (errorLine text)]
  exact hasErrorLine_append text ""

/-- A list of errors that is not empty is told in error lines. -/
theorem hasErrorLine_join {errors : List Text} (h : errors ≠ []) :
    HasErrorLine (Text.join (errors.map errorLine)) := by
  obtain ⟨error, rest, rfl⟩ := List.exists_cons_of_ne_nil h
  rw [List.map_cons, Text.join_cons]
  exact hasErrorLine_append error _

/-- Behind a heading that starts otherwise, the first line of a message is none of an
error. -/
theorem hasErrorLine_heading {heading : Text} {c : Point} (hline : OnOneLine heading)
    (hhead : heading.toList.head? = some c) (hc : c ≠ '[') (message rest : Text) :
    HasErrorLine (heading ++ message ++ "\n" ++ rest) ↔ BreaksOff message ∨ HasErrorLine rest := by
  obtain ⟨line, hlines⟩ := exists_physicalLines_append hline message
  obtain ⟨others, hothers⟩ := List.head?_eq_some_iff.mp hhead
  have hfirst : ¬ (Text.toList "[error]") <+: (heading ++ line).toList := by
    have hmark : Text.toList "[error]" = .scalar '[' :: Text.toList "error]" := rfl
    rw [Text.toList_append, hothers, hmark, List.cons_append, List.cons_prefix_cons]
    exact fun h => hc h.1.symm
  rw [hasErrorLine_feed]
  refine or_congr_left ?_
  unfold HasErrorLine BreaksOff
  rw [hlines]
  simp only [List.mem_cons, or_and_right, exists_or, exists_eq_left]
  exact or_iff_right hfirst

/-! ## The log -/

/-- Neither the place nor the code of the site has an error line. -/
structure Site.IsPlain (site : Site) : Prop where
  place : OnOneLine site.place
  start : site.place.toList.head? ≠ some (.scalar '[')
  code : ∀ code ∈ site.code, OnOneLine code

theorem Site.IsPlain.codeLine {site : Site} (h : site.IsPlain) (rest : Text) :
    HasErrorLine (site.codeLine ++ rest) ↔ HasErrorLine rest := by
  unfold Site.codeLine
  split
  · rw [Text.empty_append]
  · rename_i code hcode
    have hspaces : OnOneLine "  " := onOneLine_given rfl
    have hline : OnOneLine ("  " ++ code) := onOneLine_append.mpr ⟨hspaces, h.code code hcode⟩
    have hcode := hasErrorLine_heading hline rfl (by decide) "" rest
    rw [Text.append_empty] at hcode
    rw [hcode]
    exact or_iff_right (by unfold BreaksOff; decide)

theorem Site.IsPlain.warning {site : Site} (h : site.IsPlain) (message rest : Text) :
    HasErrorLine (site.warning message ++ rest) ↔ BreaksOff message ∨ HasErrorLine rest := by
  have hwarning : OnOneLine ": UserWarning: " := onOneLine_given rfl
  have hhead : ∃ c ≠ Point.scalar '[',
      (site.place ++ ": UserWarning: ").toList.head? = some c := by
    rcases hplace : site.place.toList with _ | ⟨c, cs⟩
    · rw [Text.toList_append, hplace]
      exact ⟨.scalar ':', by decide, rfl⟩
    · have hstart := h.start
      rw [hplace, List.head?_cons, ne_eq, Option.some.injEq] at hstart
      rw [Text.toList_append, hplace]
      exact ⟨c, hstart, rfl⟩
  obtain ⟨c, hc, hhead⟩ := hhead
  unfold Site.warning
  rw [Text.append_assoc, hasErrorLine_heading (onOneLine_append.mpr ⟨h.place, hwarning⟩) hhead hc,
    h.codeLine]

end CommandLine

end PipelineBoard
