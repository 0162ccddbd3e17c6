-- Whether an interpreter that takes a script for UTF-8 reads it as it is written.
-- Free text stands in comments, and an interpreter does not skip these entirely:
-- it refuses null characters and obeys a declaration of an encoding.
import PipelineBoard.Proofs.Script.Layout
import PipelineBoard.Proofs.Script.Nulls

namespace PipelineBoard.Script

open Text Writer

/-! ## The head of a script -/

/-- The first two lines are those of the header. -/
theorem take_two_physicalLines_draft (g : Graph) :
    (physicalLines (draft g)).take 2 =
      (["# Auto-generated by mlboard",
        "# Project: " ++ oneLine (nameOrDefault g.name)] : List Text) := by
  rw [physicalLines_draft]
  rfl

theorem declaredCodec_first : declaredCodec "# Auto-generated by mlboard" = none := by decide

/-- The heading of the second line has no part in a declaration. -/
theorem declaredCodec_second (text : Text) :
    declaredCodec ("# Project: " ++ text) = codecIn text.toList := by
  unfold declaredCodec
  rw [Text.toList_append]
  rfl

/-- A script is read as it is written just if the project name, the labels of
the data nodes and the label of the first model node hold no null character,
and the project name on one line declares no other encoding than UTF-8. There is
a script unless a value that it would show cannot be written. -/
theorem a_script_is_read_as_written_iff (g : Graph) :
    Yields g fun source => ReadAsWritten source ↔
      (¬ HasNull g.name ∧ (∀ node ∈ g.orderedOf .data, ¬ HasNull node.label) ∧
        ∀ node ∈ (g.orderedOf .model).head?, ¬ HasNull node.label) ∧
      ∀ codec, codecIn (oneLine (nameOrDefault g.name)).toList = some codec →
        namesUtf8 codec = true := by
  apply yields_of_draft
  have hcodec : (∀ line ∈ (physicalLines (draft g)).take 2, ∀ codec,
        declaredCodec line = some codec → namesUtf8 codec = true) ↔
      ∀ codec, codecIn (oneLine (nameOrDefault g.name)).toList = some codec →
        namesUtf8 codec = true := by
    rw [take_two_physicalLines_draft]
    simp [declaredCodec_first, declaredCodec_second]
  have hnull : ¬ HasNull (draft g) ↔ ¬ HasNull g.name ∧
      (∀ node ∈ g.orderedOf .data, ¬ HasNull node.label) ∧
        ∀ node ∈ (g.orderedOf .model).head?, ¬ HasNull node.label := by
    rw [hasNull_draft_iff]
    push Not
    rfl
  rw [← hcodec, ← hnull]
  exact ⟨fun h => ⟨h.noNull, h.asUtf8⟩, fun h => ⟨h.1, h.2⟩⟩

/-- The least pipeline under a name. -/
def bare (name : Text) : Graph where
  name
  nodes := [
    { id := "m", kind := "Model" }, { id := "l", kind := "Loss" }, { id := "o", kind := "Optimizer" }]
  edges := []
  ids_nodup := by decide

theorem allShort_bare (name : Text) : Json.allShort (bare name).scriptValues = true := by
  have hsame : (bare name).scriptValues = (bare "").scriptValues := rfl
  rw [hsame]
  decide +kernel

/-- A project name can declare another encoding, also over a line break, or
hold a null character. -/
theorem a_name_can_keep_a_script_from_being_read :
    (∀ name, (bare name).problems = [] ∧ ∃ source, emit (bare name) = .ok source) ∧
      ∀ name ∈ (["coding: latin-1", "coding:\nlatin-1", "a\x00b"] : List Text), ∀ source,
        emit (bare name) = .ok source → ¬ ReadAsWritten source := by
  have hdeclares : ∀ name codec, codecIn (oneLine (nameOrDefault name)).toList = some codec →
      namesUtf8 codec = false → ¬ ReadAsWritten (draft (bare name)) := by
    intro name codec hcodec hother h
    have hutf8 := h.asUtf8 ("# Project: " ++ oneLine (nameOrDefault name))
      (by rw [take_two_physicalLines_draft]; exact List.mem_cons_of_mem _ List.mem_cons_self) codec
      (by rw [declaredCodec_second, hcodec])
    rw [hother] at hutf8
    cases hutf8
  refine ⟨fun name => ⟨?_, _, emit_eq_ok_iff.mpr ⟨allShort_bare name, rfl⟩⟩, ?_⟩
  · have hsame : (bare name).problems = (bare "").problems := rfl
    rw [hsame]
    decide +kernel
  · intro name hname source hsource
    obtain ⟨_, rfl⟩ := emit_eq_ok_iff.mp hsource
    simp only [List.mem_cons, List.not_mem_nil, or_false] at hname
    rcases hname with rfl | rfl | rfl
    · exact hdeclares _ (Text.toList "latin-1") (by decide +kernel) (by decide +kernel)
    · exact hdeclares _ (Text.toList "latin-1") (by decide +kernel) (by decide +kernel)
    · intro h
      exact h.noNull ((hasNull_draft_iff _).mpr (Or.inl (by decide)))

end PipelineBoard.Script
