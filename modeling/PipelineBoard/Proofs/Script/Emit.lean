-- The code of a whole script. Whatever texts a graph holds, its script has the
-- lines of code that its stages ask for, and no other.
import PipelineBoard.Proofs.Script.Code
import PipelineBoard.Proofs.Script.Shown

namespace PipelineBoard

/-! ## The code of a stage -/

namespace Fragment

open Text Writer Script

/-- Nodes that print one line each print them in order, numbered from the
start on. -/
theorem prints_each (stage : Stage) {text : Nat → Node → Text}
    (h : ∀ (index : Nat) (node : Node), Prints (single stage node index) [text index node])
    (nodes : List Node) : ∀ start : Nat,
      Prints (each stage start nodes) (nodes.mapIdx fun index => text (start + index)) := by
  induction nodes with
  | nil => exact fun _ => prints_nothing
  | cons node rest ih =>
    intro start
    have hshift : (fun index => text (start + (index + 1))) =
        fun index => text (start + 1 + index) := by
      funext index
      rw [Nat.add_assoc, Nat.add_comm 1 index]
    have hrest := (h start node).andThen (ih (start + 1))
    rw [List.mapIdx_cons, hshift]
    exact hrest

/-- Only the first of the nodes prints. -/
theorem prints_first (stage : Stage) {code : Node → List Text}
    (h : ∀ node, Prints (single stage node 0) (code node)) (nodes : List Node) :
    Prints (first stage nodes) (nodes.head?.elim [] code) := by
  rcases nodes with _ | ⟨node, rest⟩
  · exact prints_nothing
  · have := (h node).andThen prints_blank
    rw [List.append_nil] at this
    exact this

/-- One node is enough for the code of these stages. -/
theorem prints_any (stage : Stage) {code : List Text}
    (h : ∀ node, Prints (single stage node 0) code) (nodes : List Node) :
    Prints (first stage nodes) (if nodes.isEmpty then [] else code) := by
  refine Prints.of_eq (prints_first stage h nodes) ?_
  cases nodes <;> rfl

theorem prints_group (nodes : List Node) (stage : Stage) :
    Prints (group stage nodes) (stageCode nodes stage) := by
  cases stage with
  | data =>
    have hdata := (prints_each .data (fun index node => prints_data node index) nodes 0).andThen
      prints_blank
    simp only [Nat.zero_add, List.append_nil] at hdata
    exact hdata
  | transform =>
    have heach := prints_each .transform (fun index node => prints_transform node index) nodes 0
    have htransform := ((prints_comment "Transforms" (onOneLine_given rfl)).andThen heach).andThen
      prints_blank
    simp only [Nat.zero_add, List.nil_append, List.append_nil] at htransform
    exact htransform
  | split => exact prints_any .split prints_split nodes
  | model => exact prints_any .model prints_model nodes
  | loss => exact prints_any .loss (fun _ => prints_loss) nodes
  | optimizer => exact prints_first .optimizer prints_optimizer nodes
  | trainer => exact prints_first .trainer prints_trainer nodes
  | metric =>
    rcases nodes with _ | ⟨node, rest⟩
    · exact prints_nothing
    · exact prints_metric
  | composite => exact prints_nothing

end Fragment

/-! ## The code of a script -/

namespace Script

open Text Writer

theorem prints_fragment (nodes : List Node) (stage : Stage) :
    Prints (fun w => fragment nodes w stage) (stageCode (nodes.filter (·.is stage)) stage) := by
  rcases hgroup : nodes.filter (·.is stage) with _ | ⟨node, rest⟩
  · have hnone : (fun w => fragment nodes w stage) = fun w => w := by
      funext w
      simp [fragment, hgroup]
    rw [hnone, hgroup]
    cases stage <;> exact prints_nothing
  · have hsome : (fun w => fragment nodes w stage) = Fragment.group stage (node :: rest) := by
      funext w
      simp [fragment, hgroup]
    rw [hsome, hgroup]
    exact Fragment.prints_group (node :: rest) stage

theorem prints_fragments (nodes : List Node) (some : List Stage) :
    Prints (fun w => some.foldl (fragment nodes) w)
      (some.flatMap fun stage => stageCode (nodes.filter (·.is stage)) stage) := by
  induction some with
  | nil => exact prints_nothing
  | cons stage rest ih => exact (prints_fragment nodes stage).andThen ih

theorem prints_header (name : Text) : Prints (all (header name)) headerCode := by
  have hproject : OnOneLine ("# Project: " ++ oneLine name) :=
    onOneLine_append.mpr ⟨onOneLine_given rfl, onOneLine_oneLine name⟩
  have hcomment : isCode ("# Project: " ++ oneLine name) = false := by simp [isCode, isIndent]
  refine ⟨header name, adds_all _, ?_, ?_⟩
  · intro t ht
    simp only [header, List.mem_cons, List.not_mem_nil, or_false] at ht
    rcases ht with rfl | rfl | rfl | rfl | rfl | rfl | rfl | rfl | rfl | rfl
    on_goal 2 => exact hproject
    all_goals exact onOneLine_given rfl
  · unfold header
    rw [List.filter_cons_of_neg (by simp [isCode, isIndent]),
      List.filter_cons_of_neg (by simp [hcomment]),
      List.filter_cons_of_pos (isCode_given rfl rfl), List.filter_cons_of_pos (isCode_given rfl rfl),
      List.filter_cons_of_pos (isCode_given rfl rfl), List.filter_cons_of_pos (isCode_given rfl rfl),
      List.filter_cons_of_neg (by simp [isCode_empty]),
      List.filter_cons_of_neg (by simp [isCode, isIndent]),
      List.filter_cons_of_pos (isCode_given rfl rfl),
      List.filter_cons_of_neg (by simp [isCode_empty])]
    rfl

theorem prints_footer (name : Text) : Prints (all (footer name)) (footerCode name) := by
  have hcomment := prints_comment "Save model" (onOneLine_given rfl)
  have hsave : CodeLine "torch.save(model.state_dict(), " := codeLine_given rfl rfl rfl
  have hquoted : OnOneLine (Text.ofList (doubleQuoted (artifactName name).toList)) := by
    apply onOneLine_of_class (p := isGraphic) rfl rfl
    rw [Text.toList_ofList]
    exact isGraphic_of_mem_doubleQuoted _
  have hend : OnOneLine ")" := onOneLine_given rfl
  exact hcomment.andThen (prints_line _ ((hsave.append hquoted).append hend))

/-- The code of the script of nodes in the order of their dependencies. -/
def scriptCode (name : Text) (nodes : List Node) : List Text :=
  headerCode ++ (stages.flatMap fun stage => stageCode (nodes.filter (·.is stage)) stage) ++
    footerCode name

theorem prints_write (name : Text) (nodes : List Node) :
    Prints (fun w => all (footer name) (stages.foldl (fragment nodes) (all (header name) w)))
      (scriptCode name nodes) :=
  ((prints_header name).andThen (prints_fragments nodes stages)).andThen (prints_footer name)

theorem codeLines_write (name : Text) (nodes : List Node) :
    codeLines ((write name nodes).joined ++ "\n") = scriptCode name nodes := by
  refine (prints_write name nodes).codeLines_joined ?_
  simp [scriptCode, headerCode]

theorem codeLines_draft (g : Graph) : codeLines (draft g) = scriptCode g.name g.ordered := by
  have hfooter : footerCode (nameOrDefault g.name) = footerCode g.name := by
    unfold footerCode artifactName
    rw [nameOrDefault_eq_self (nameOrDefault_ne_empty g.name)]
  unfold draft
  rw [codeLines_write]
  unfold scriptCode
  rw [hfooter]

/-- The script of a valid graph has these lines of code and no other, whatever
texts the graph holds. It has a script unless a value that the script would show
cannot be written. -/
theorem a_script_has_this_code_and_no_other (g : Graph) (valid : g.problems = []) :
    (∀ stage, (g.orderedOf stage).Perm (g.ofStage stage)) ∧
      ∃ optimizer, (g.orderedOf .optimizer).head? = some optimizer ∧
        Yields g fun source => codeLines source =
          headerCode ++
          dataCode (g.orderedOf .data) ++
          transformCode (g.orderedOf .transform) ++
          (if (g.ofStage .split).isEmpty then [] else splitCode) ++
          modelCode ++
          lossCode ++
          optimizerCode optimizer ++
          (g.orderedOf .trainer).head?.elim [] trainerCode ++
          (if (g.ofStage .metric).isEmpty then [] else metricCode) ++
          footerCode g.name := by
  refine ⟨Graph.orderedOf_perm valid, ?_⟩
  have hsome : ∀ stage ∈ Stage.required, (g.orderedOf stage) ≠ [] := by
    intro stage hstage hnone
    have hperm := Graph.orderedOf_perm valid stage
    rw [hnone, List.nil_perm] at hperm
    exact Graph.ofStage_ne_nil valid hstage hperm
  obtain ⟨optimizer, rest, horder⟩ := List.exists_cons_of_ne_nil (hsome .optimizer (by decide))
  have hmodel : stageCode (g.orderedOf .model) .model = modelCode :=
    if_neg fun h => hsome .model (by decide) (List.isEmpty_iff.mp h)
  have hloss : stageCode (g.orderedOf .loss) .loss = lossCode :=
    if_neg fun h => hsome .loss (by decide) (List.isEmpty_iff.mp h)
  have hoptimizer : stageCode (g.orderedOf .optimizer) .optimizer = optimizerCode optimizer := by
    rw [horder]
    rfl
  have hcomposite : stageCode (g.orderedOf .composite) .composite = [] := rfl
  have hstages : (stages.flatMap fun stage => stageCode (g.orderedOf stage) stage) =
      dataCode (g.orderedOf .data) ++ (transformCode (g.orderedOf .transform) ++
        ((if (g.orderedOf .split).isEmpty then [] else splitCode) ++
          (modelCode ++ (lossCode ++ (optimizerCode optimizer ++
            ((g.orderedOf .trainer).head?.elim [] trainerCode ++
              (if (g.orderedOf .metric).isEmpty then [] else metricCode))))))) := by
    rw [← hmodel, ← hloss, ← hoptimizer]
    simp only [stages, List.flatMap_cons, List.flatMap_nil, hcomposite, List.append_nil]
    rfl
  refine ⟨optimizer, by rw [horder]; rfl, yields_of_draft ?_⟩
  have hcode : codeLines (draft g) = headerCode ++
      (stages.flatMap fun stage => stageCode (g.orderedOf stage) stage) ++ footerCode g.name :=
    codeLines_draft g
  rw [hcode, hstages, Graph.isEmpty_orderedOf valid, Graph.isEmpty_orderedOf valid]
  simp only [List.append_assoc]

/-- A graph whose texts try to end their lines. -/
def hostile : Graph where
  name := "digits\r\nimport os"
  nodes := [
    { id := "o", kind := "Optimizer", params := [("lr", .string "1)\nimport os")] },
    { id := "d", kind := "Data", label := "MNIST\nimport os", summary := "\rimport os",
      params := [("root", .list [.string "\nimport os"])] },
    { id := "m", kind := "Model", label := "\rimport os" },
    { id := "l", kind := "Loss" }]
  edges := [{ source := "d", target := "o" }]
  ids_nodup := by decide

theorem the_code_of_a_hostile_graph :
    hostile.problems = [] ∧ ∃ source, emit hostile = .ok source ∧
      codeLines source =
        headerCode ++ (["MNIST_import_os = None  # TODO: load your dataset here"] : List Text) ++
          modelCode ++ lossCode ++
          (["optimizer = optim.Adam(model.parameters(), lr=0.001)",
            "torch.save(model.state_dict(), \"digits\\r\\nimport os.pt\")"] : List Text) := by
  have valid : hostile.problems = [] := by decide +kernel
  obtain ⟨_, optimizer, hoptimizer, hcode⟩ := a_script_has_this_code_and_no_other hostile valid
  have horder : hostile.order = ["d", "m", "l", "o"] := by decide +kernel
  have hordered : hostile.ordered = [hostile.nodes[1], hostile.nodes[2], hostile.nodes[3],
      hostile.nodes[0]] := by
    unfold Graph.ordered
    rw [horder]
    rfl
  have hfirst : (hostile.orderedOf .optimizer).head? = some hostile.nodes[0] := by
    unfold Graph.orderedOf
    rw [hordered]
    rfl
  rw [hfirst, Option.some.injEq] at hoptimizer
  have hshort : Json.allShort hostile.scriptValues = true := by
    unfold Graph.scriptValues Graph.orderedOf
    rw [hordered]
    decide +kernel
  obtain ⟨source, hsource, hlines⟩ := hcode.exists_source hshort
  refine ⟨valid, source, hsource, ?_⟩
  rw [hlines, ← hoptimizer]
  unfold Graph.orderedOf
  rw [hordered]
  decide +kernel

/-- A pipeline whose data node has a size among its params. -/
def sized (size : Int) : Graph where
  name := "p"
  nodes := [
    { id := "d", kind := "Data", params := [("size", .int size)] }, { id := "m", kind := "Model" },
    { id := "l", kind := "Loss" }, { id := "o", kind := "Optimizer" }]
  edges := []
  ids_nodup := (by decide : (["d", "m", "l", "o"] : List Text).Nodup)

theorem problems_sized (size : Int) : (sized size).problems = [] := by
  have hsame : (sized size).problems = (sized 0).problems := rfl
  rw [hsame]
  decide +kernel

theorem emit_sized {size : Int} (long : Numeral.isShort size = false) :
    emit (sized size) = .error .tooManyDigits := by
  let node : Node := { id := "d", kind := "Data", params := [("size", .int size)] }
  have hnode : node ∈ (sized size).orderedOf .data := by
    rw [(Graph.orderedOf_perm (problems_sized size) .data).mem_iff]
    exact List.mem_filter.mpr ⟨List.mem_cons_self, rfl⟩
  have hvalue : Json.object [("size", .int size)] ∈ (sized size).scriptValues :=
    List.mem_flatMap.mpr ⟨.data, by decide, List.mem_flatMap.mpr
      ⟨_, hnode, List.mem_singleton_self _⟩⟩
  rw [emit_eq_draft, if_neg]
  intro hshort
  have hobject := Json.allShort_iff.mp hshort _ hvalue
  simp [Json.isShort, Json.allFieldsShort, long] at hobject

/-- A valid graph has no script where a comment would show a number of 4301
digits. -/
theorem a_param_of_too_many_digits_has_no_script :
    (sized (10 ^ Numeral.mostDigits : Nat)).problems = [] ∧
      ∀ source, emit (sized (10 ^ Numeral.mostDigits : Nat)) ≠ .ok source := by
  refine ⟨problems_sized _, fun source hsource => ?_⟩
  rw [emit_sized Numeral.isShort_pow_ten] at hsource
  cases hsource

end Script

end PipelineBoard
