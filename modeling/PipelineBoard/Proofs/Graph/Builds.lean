-- Building a graph: every error, or a script if all the values that it would show
-- can be written.
import PipelineBoard.Proofs.Script.Shown

namespace PipelineBoard.Graph

/-! ## The two ways of a build -/

theorem build_of_invalid {g : Graph} (h : g.problems ≠ []) : g.build = .ok ⟨"", g.problems⟩ := by
  unfold build
  dsimp only
  rw [if_neg (by rwa [List.isEmpty_iff])]

theorem build_of_valid {g : Graph} (h : g.problems = []) :
    g.build = (Script.emit g).map fun source => ⟨source, []⟩ := by
  unfold build
  rw [h]
  rfl

theorem draft_ne_empty (g : Graph) : Script.draft g ≠ "" := by
  unfold Script.draft
  simp

/-- A graph without problems is built just if its script can be written. -/
theorem build_of_valid_eq {g : Graph} (h : g.problems = []) :
    g.build = if Json.allShort g.scriptValues then .ok ⟨Script.draft g, []⟩
      else .error .tooManyDigits := by
  rw [build_of_valid h, Script.emit_eq_draft]
  split <;> rfl

/-- A graph without problems whose script can be written has a build. -/
theorem exists_ok_build {g : Graph} (valid : g.problems = [])
    (short : Json.allShort g.scriptValues = true) :
    ∃ build, g.build = .ok build ∧ build.ok = true := by
  rw [build_of_valid_eq valid, if_pos short]
  exact ⟨_, rfl, rfl⟩

/-- A build fails only where a script would show a value that cannot be written. -/
theorem build_eq_error_iff {g : Graph} {e : Numeral.WriteError} :
    g.build = .error e ↔ g.problems = [] ∧ Json.allShort g.scriptValues = false := by
  by_cases h : g.problems = []
  · rw [build_of_valid_eq h]
    cases e
    split <;> simp_all
  · simp [build_of_invalid h, h]

theorem problems_of_build_eq_ok {g : Graph} {build : Build} (h : g.build = .ok build) :
    build.problems = g.problems := by
  by_cases hproblems : g.problems = []
  · rw [build_of_valid hproblems] at h
    cases hemit : Script.emit g with
    | error e =>
      rw [hemit] at h
      cases h
    | ok source =>
      rw [hemit] at h
      cases h
      exact hproblems.symm
  · rw [build_of_invalid hproblems] at h
    cases h
    rfl

theorem errors_of_build_eq_ok {g : Graph} {build : Build} (h : g.build = .ok build) :
    build.errors = g.expectedErrors := by
  rw [Build.errors, problems_of_build_eq_ok h, problems_message]

/-- The graph that is built under another name. -/
def underName (g : Graph) (name : Option Text) : Graph :=
  match name with
  | none => g
  | some name => g.rename name

theorem buildAs_eq (g : Graph) (name : Option Text) : g.buildAs name = (g.underName name).build :=
  rfl

theorem problems_underName (g : Graph) (name : Option Text) :
    (g.underName name).problems = g.problems := by
  cases name <;> rfl

theorem scriptValues_underName (g : Graph) (name : Option Text) :
    (g.underName name).scriptValues = g.scriptValues := by
  cases name <;> rfl

/-! ## What a build answers -/

/-- The errors of a graph are the required stages that no node does the work
of, then a cycle if there is one. A graph with errors is built to just these
errors and no script. One without is built to a script if all the values that
the script shows can be written, and is not built otherwise. -/
theorem a_build_has_the_errors_or_a_script_that_can_be_written (g : Graph) (name : Option Text) :
    g.problems.map Problem.message = g.expectedErrors ∧
      (g.expectedErrors ≠ [] → ∃ build, g.buildAs name = .ok build ∧ build.ok = false ∧
        build.source = "" ∧ build.errors = g.expectedErrors) ∧
      (g.expectedErrors = [] →
        if Json.allShort g.scriptValues then ∃ build, g.buildAs name = .ok build ∧
          build.ok = true ∧ build.source ≠ "" ∧ build.errors = []
        else g.buildAs name = .error .tooManyDigits) := by
  rw [buildAs_eq, ← scriptValues_underName g name, Ne, expectedErrors_eq_nil_iff,
    ← problems_underName g name]
  refine ⟨by rw [problems_underName, problems_message], fun hinvalid => ?_, fun valid => ?_⟩
  · refine ⟨_, build_of_invalid hinvalid, by simpa [Build.ok] using hinvalid, rfl, ?_⟩
    rw [errors_of_build_eq_ok (build_of_invalid hinvalid), ← problems_message, problems_underName,
      problems_message]
  · rw [build_of_valid_eq valid]
    split
    · exact ⟨_, rfl, rfl, draft_ne_empty _, rfl⟩
    · rfl

/-- A pipeline with a learning rate of its own. -/
def rated (rate : Int) : Graph where
  name := "p"
  nodes := [
    { id := "m", kind := "Model" }, { id := "l", kind := "Loss" },
    { id := "o", kind := "Optimizer", params := [("lr", .int rate)] }]
  edges := []
  ids_nodup := (by decide : (["m", "l", "o"] : List Text).Nodup)

theorem problems_rated (rate : Int) : (rated rate).problems = [] := by
  have hsame : (rated rate).problems = (rated 0).problems := rfl
  rw [hsame]
  decide +kernel

theorem scriptValues_rated (rate : Int) :
    (rated rate).scriptValues = [.object [], .int rate] := by
  have horder : (rated rate).order = ["m", "l", "o"] := by
    have hsame : (rated rate).order = (rated 0).order := rfl
    rw [hsame]
    decide +kernel
  unfold scriptValues orderedOf ordered
  rw [horder]
  rfl

theorem build_rated {rate : Int} (long : Numeral.isShort rate = false) :
    (rated rate).build = .error .tooManyDigits := by
  rw [build_eq_error_iff, scriptValues_rated]
  refine ⟨problems_rated rate, ?_⟩
  simp only [Json.allShort, Json.isShort, long, Bool.false_and, Bool.and_false]

/-- A rate of 4301 digits keeps a pipeline without errors from being built. -/
theorem a_rate_of_too_many_digits_is_not_built :
    (rated (10 ^ Numeral.mostDigits : Nat)).expectedErrors = [] ∧
      (rated (10 ^ Numeral.mostDigits : Nat)).buildAs none = .error .tooManyDigits :=
  ⟨(expectedErrors_eq_nil_iff _).mpr (problems_rated _), build_rated Numeral.isShort_pow_ten⟩

end PipelineBoard.Graph
