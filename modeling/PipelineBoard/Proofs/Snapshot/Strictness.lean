-- A strict inspection beside one that is not. Both go the same way up to the
-- first notice, and there the strict one ends.
import PipelineBoard.Proofs.Snapshot.Inspections
import PipelineBoard.Snapshot.Reader

namespace PipelineBoard.Snapshot

namespace Inspection

variable {α β : Type}

/-! ## In step -/

/-- The strict inspection is the other one if that gives no notice, and refuses
the first notice otherwise. -/
def InStep (strict lax : Inspection α) : Prop :=
  match lax.notices with
  | [] => strict = lax
  | notice :: _ => strict = fail (.refused notice)

theorem InStep.of_quiet {inspection : Inspection α} (h : inspection.notices = []) :
    InStep inspection inspection := by
  unfold InStep
  rw [h]

theorem inStep_found (value : α) : InStep (found value) (found value) := .of_quiet rfl

theorem inStep_report (notice : Notice) : InStep (report true notice) (report false notice) := rfl

/-- Two inspections in step, followed by inspections in step. -/
theorem InStep.bind {strict lax : Inspection α} {next next' : α → Inspection β}
    (h : InStep strict lax) (hnext : ∀ value, InStep (next value) (next' value)) :
    InStep (strict >>= next) (lax >>= next') := by
  obtain ⟨notices, result⟩ := lax
  unfold InStep at h
  cases notices with
  | nil =>
    simp only at h
    subst h
    cases result with
    | error e => exact .of_quiet rfl
    | ok value =>
      have hsame : ∀ next : α → Inspection β,
          (⟨[], .ok value⟩ : Inspection α) >>= next = next value := found_andThen value
      rw [hsame, hsame]
      exact hnext value
  | cons notice rest =>
    simp only at h
    subst h
    cases result with
    | error e => rfl
    | ok value => rfl

end Inspection

open Inspection

/-! ## Reading in step -/

section

variable (spot : Spot) (fields : Fields) (key : Text) (index : Nat) (g : Graph) (value : Json)

theorem notices_expect {α : Type} (error : SchemaError) (what : Option α) :
    (expect error what).notices = [] := by
  cases what <;> rfl

theorem inStep_readObject (error : SchemaError) :
    InStep (readObject error value) (readObject error value) := .of_quiet (notices_expect _ _)

theorem inStep_readField : InStep (readField spot fields key) (readField spot fields key) :=
  .of_quiet (notices_expect _ _)

theorem inStep_readText : InStep (readText spot key value) (readText spot key value) := by
  apply InStep.of_quiet
  unfold readText
  split <;> rfl

theorem inStep_readList : InStep (readList key value) (readList key value) := by
  apply InStep.of_quiet
  unfold readList
  split <;> rfl

theorem inStep_readOptionalText :
    InStep (readOptionalText spot fields key) (readOptionalText spot fields key) := by
  unfold readOptionalText
  split
  · exact inStep_found ("" : Text)
  · exact inStep_found ("" : Text)
  · exact inStep_readText spot key _

theorem inStep_demand (condition : Bool) (error : SchemaError) :
    InStep (demand condition error) (demand condition error) := by
  apply InStep.of_quiet
  cases condition <;> rfl

theorem inStep_readParams : InStep (readParams spot fields) (readParams spot fields) := by
  unfold readParams
  split
  · exact inStep_found []
  · exact inStep_found []
  · exact (inStep_demand _ _).bind fun _ => inStep_found _
  · exact .of_quiet rfl

theorem inStep_readPosition : InStep (readPosition spot fields) (readPosition spot fields) := by
  apply InStep.of_quiet
  unfold readPosition
  split <;> rfl

theorem inStep_readName : InStep (readName fields) (readName fields) := by
  apply InStep.of_quiet
  unfold readName
  split <;> rfl

theorem inStep_readNode : InStep (readNode true index g value) (readNode false index g value) := by
  unfold readNode
  refine (inStep_readObject _ _).bind fun outer => (inStep_readField _ _ _).bind fun idValue =>
    (inStep_readText _ _ _).bind fun id => ?_
  by_cases fresh : id ∉ g.ids
  · rw [dif_pos fresh, dif_pos fresh]
    refine (inStep_readField _ _ _).bind fun kindValue => (inStep_readText _ _ _).bind fun kind =>
      (inStep_readOptionalText _ _ _).bind fun label =>
      (inStep_readOptionalText _ _ _).bind fun summary => (inStep_readParams _ _).bind fun params =>
      (inStep_readPosition _ _).bind fun position => ?_
    split
    · exact (inStep_report _).bind fun _ => inStep_found _
    · exact inStep_found _
  · rw [dif_neg fresh, dif_neg fresh]
    exact .of_quiet rfl

theorem inStep_readNodes (values : List Json) :
    InStep (readNodes true index g values) (readNodes false index g values) := by
  induction values generalizing index g with
  | nil => exact inStep_found g
  | cons value rest ih => exact (inStep_readNode index g value).bind fun g' => ih (index + 1) g'

theorem inStep_readEnd (which : End) :
    InStep (readEnd true index g which value) (readEnd false index g which value) := by
  unfold readEnd
  refine (inStep_readText _ _ _).bind fun id => ?_
  split
  · exact (inStep_report _).bind fun _ => inStep_found id
  · exact inStep_found id

theorem inStep_readEdge : InStep (readEdge true index g value) (readEdge false index g value) := by
  unfold readEdge
  exact (inStep_readObject _ _).bind fun edge => (inStep_readField _ _ _).bind fun sourceValue =>
    (inStep_readField _ _ _).bind fun targetValue => (inStep_readEnd _ _ _ _).bind fun source =>
    (inStep_readEnd _ _ _ _).bind fun target => inStep_found _

theorem inStep_readEdges (values : List Json) :
    InStep (readEdges true index g values) (readEdges false index g values) := by
  induction values generalizing index with
  | nil => exact inStep_found []
  | cons value rest ih =>
    exact (inStep_readEdge index g value).bind fun edge => (ih (index + 1)).bind fun edges =>
      inStep_found _

/-- A strict reading is in step with one that is not. -/
theorem inStep_read : InStep (read true value) (read false value) := by
  unfold read
  exact (inStep_readObject _ _).bind fun fields => (inStep_readField _ _ _).bind fun nodesValue =>
    (inStep_readField _ _ _).bind fun edgesValue => (inStep_readList _ _).bind fun nodes =>
    (inStep_readList _ _).bind fun edges => (inStep_readName _).bind fun name =>
    (inStep_readNodes _ _ _).bind fun g => (inStep_readEdges _ _ _).bind fun edges =>
    inStep_found _

theorem inStep_validate : InStep (validate true value) (validate false value) :=
  (inStep_read value).bind fun _ => inStep_found ()

end

/-! ## What is told first is refused -/

/-- All that an inspection tells: its notices, and then the error if it ended in
one. -/
def told {α : Type} (inspection : Inspection α) : List Text :=
  inspection.notices.map Notice.message ++
    match inspection.result with
    | .error e => [e.message]
    | .ok _ => []

/-- A strict inspection gives no notice. It lets a value through just if the
other inspection has nothing to tell, and ends otherwise in the first thing that
is told there. A graph that is read strictly is the one that is read otherwise. -/
theorem a_strict_inspection_refuses_what_is_told_first (value : Json) :
    (validate true value).notices = [] ∧
      ((validate true value).result = .ok () ↔ told (validate false value) = []) ∧
      (∀ e, (validate true value).result = .error e →
        (told (validate false value)).head? = some e.message) ∧
      ∀ g, (read true value).result = .ok g → (read false value).result = .ok g := by
  have hvalidate := inStep_validate value
  have hread := inStep_read value
  unfold InStep at hvalidate hread
  unfold told
  refine ⟨?_, ?_, ?_, ?_⟩
  · split at hvalidate
    next hquiet => rw [hvalidate, hquiet]
    next => rw [hvalidate, fail]
  · split at hvalidate
    next hquiet =>
      rw [hvalidate, hquiet]
      cases (validate false value).result <;> simp
    next hnotices =>
      rw [hvalidate, hnotices]
      simp [fail]
  · intro e he
    split at hvalidate
    next hquiet =>
      rw [hvalidate] at he
      rw [hquiet, he]
      rfl
    next hnotices =>
      rw [hvalidate] at he
      cases he
      rw [hnotices]
      rfl
  · intro g hg
    split at hread
    next => rwa [hread] at hg
    next =>
      rw [hread] at hg
      cases hg

/-- A snapshot with a node of an unknown kind, an edge that leads from nowhere,
and an edge with a number at its end. -/
def oddSketch : Json := .object [
  ("nodes", .list [.object [("id", .string "n"), ("type", .string "Note")]]),
  ("edges", .list [
    .object [("source", .string "ghost"), ("target", .string "n")],
    .object [("source", .string "n"), ("target", .int 7)]])]

theorem the_strict_reading_of_an_odd_sketch :
    told (validate false oddSketch) = ([
        "nodes[0]: unknown node type 'Note' (node will be ignored by the compiler)",
        "edges[0]: source 'ghost' not found in nodes", "edges[1].target must be a string"] :
          List Text) ∧
      ∃ e, (validate true oddSketch).result = .error e ∧
        e.message = "nodes[0]: unknown node type 'Note' (node will be ignored by the compiler)" := by
  have htold : told (validate false oddSketch) = ([
      "nodes[0]: unknown node type 'Note' (node will be ignored by the compiler)",
      "edges[0]: source 'ghost' not found in nodes", "edges[1].target must be a string"] :
        List Text) := by
    decide +kernel
  obtain ⟨_, hok, herror, _⟩ := a_strict_inspection_refuses_what_is_told_first oddSketch
  refine ⟨htold, ?_⟩
  rcases hresult : (validate true oddSketch).result with e | ⟨⟩
  · have hfirst := herror e hresult
    rw [htold] at hfirst
    exact ⟨e, rfl, (Option.some.inj hfirst).symm⟩
  · rw [hok.mp hresult] at htold
    cases htold

end PipelineBoard.Snapshot
