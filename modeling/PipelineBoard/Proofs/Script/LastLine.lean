-- The last line of a script hands the file name of the model to a call. Whatever
-- the project is called, the name stays inside its quotes.
import PipelineBoard.Proofs.Script.Layout
import PipelineBoard.Proofs.Text.Literal

namespace PipelineBoard.Script

open Text

/-- In front of any source the literal is read up to its closing quote, and says
the text. An empty literal before another quote would be taken for the front of
three quotes. -/
def Denotes (named : Text → Option Nat) (literal text : Text) : Prop :=
  ∀ after : List Point, (text = "" → after.head? ≠ some (.scalar '"')) →
    readLiteral? named (literal.toList ++ after) = some (points text, after)

theorem denotes_doubleQuoted (named : Text → Option Nat) (text : Text) :
    Denotes named (Text.ofList (doubleQuoted text.toList)) text := by
  intro after h
  rw [Text.toList_ofList, readLiteral?_doubleQuoted]
  · rfl
  · intro hnil
    exact h (Text.toList_eq_nil_iff.mp hnil)

/-- A script ends in the call that saves the model, on a line of its own, and
its file name is the project's name or the default one. There is a script unless
a value that it would show cannot be written. The literal of any text says the
text. -/
theorem a_script_saves_under_the_name_of_its_project (named : Text → Option Nat) (g : Graph) :
    (∃ literal, Denotes named literal ((if g.name = "" then ("project" : Text) else g.name) ++ ".pt") ∧
      (Yields g fun source => ∃ before, physicalLines source =
        before ++ (["torch.save(model.state_dict(), " ++ literal ++ ")", ""] : List Text)) ∧
      ∀ order source, emitIn g order = .ok source → ∃ before, physicalLines source =
        before ++ (["torch.save(model.state_dict(), " ++ literal ++ ")", ""] : List Text)) ∧
      ∀ text : Text, Denotes named (Json.literal (.string text)) text := by
  have hname : artifactName (nameOrDefault g.name) =
      (if g.name = "" then ("project" : Text) else g.name) ++ ".pt" := by
    unfold artifactName
    rw [nameOrDefault_eq_self (nameOrDefault_ne_empty g.name)]
    by_cases h : g.name = ""
    · rw [if_pos h, h]
      rfl
    · rw [if_neg h, nameOrDefault_eq_self h]
  have hlast : ∀ order source, emitIn g order = .ok source → ∃ before, physicalLines source =
      before ++ (["torch.save(model.state_dict(), " ++
        Text.ofList (doubleQuoted (artifactName (nameOrDefault g.name)).toList) ++ ")",
        ""] : List Text) := by
    intro order source hsource
    refine ⟨header (nameOrDefault g.name) ++
      stages.flatMap (stageLines (order.filterMap g.find?)) ++ (["# Save model"] : List Text), ?_⟩
    rw [physicalLines_emitIn hsource]
    simp [footer]
  refine ⟨⟨_, ?_, yields_of_emit (hlast g.order), hlast⟩, ?_⟩
  · rw [hname]
    exact denotes_doubleQuoted named _
  · intro text
    exact denotes_doubleQuoted named text

end PipelineBoard.Script
