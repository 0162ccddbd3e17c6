-- Which labels give the name of a variable, and so which lines of a script assign
-- to one. A label that starts with a digit or is a keyword gives none.
import PipelineBoard.Proofs.Script.Emit
import PipelineBoard.Proofs.Script.Names
import PipelineBoard.Proofs.Text.Identifier

namespace PipelineBoard.Script

open Text

/-! ## Variables -/

/-- The words that code keeps for itself. -/
def keywords : List Text := [
  "False", "None", "True", "and", "as", "assert", "async", "await", "break", "class", "continue",
  "def", "del", "elif", "else", "except", "finally", "for", "from", "global", "if", "import", "in",
  "is", "lambda", "nonlocal", "not", "or", "pass", "raise", "return", "try", "while", "with",
  "yield"]

/-- The name of a variable: letters, digits and underscores, no digit in front,
and no keyword. -/
structure IsVariable (name : Text) : Prop where
  nonempty : name ≠ ""
  word : ∀ c ∈ name.toList, isWord c = true
  noDigit : ∀ c ∈ name.toList.head?, isDigit c = false
  noKeyword : name ∉ keywords

-- A test for the instances: the characters are too many to be gone through.
theorem all_notDigit_iff {first : Option Point} :
    first.all (fun c => !isDigit c) = true ↔ ∀ c ∈ first, isDigit c = false := by
  cases first <;> simp

instance (name : Text) : Decidable (IsVariable name) :=
  decidable_of_iff (name ≠ "" ∧ name.toList.all isWord = true ∧
      name.toList.head?.all (fun c => !isDigit c) = true ∧ name ∉ keywords)
    ⟨fun ⟨nonempty, word, noDigit, noKeyword⟩ =>
        ⟨nonempty, List.all_eq_true.mp word, all_notDigit_iff.mp noDigit, noKeyword⟩,
      fun h => ⟨h.nonempty, List.all_eq_true.mpr h.word, all_notDigit_iff.mpr h.noDigit,
        h.noKeyword⟩⟩

/-- What a label must be for its name to be that of a variable. -/
structure GivesVariable (label : Text) : Prop where
  noDigit : ∀ c ∈ label.toList.head?, isDigit c = false
  noKeyword : label ∉ keywords

instance (label : Text) : Decidable (GivesVariable label) :=
  decidable_of_iff (label.toList.head?.all (fun c => !isDigit c) = true ∧ label ∉ keywords)
    ⟨fun ⟨noDigit, noKeyword⟩ => ⟨all_notDigit_iff.mp noDigit, noKeyword⟩,
      fun h => ⟨all_notDigit_iff.mpr h.noDigit, h.noKeyword⟩⟩

/-- A keyword has no underscores. -/
theorem of_mem_keywords {word : Text} (h : word ∈ keywords) :
    (∀ c ∈ word.toList, isWord c = true) ∧ Point.scalar '_' ∉ word.toList := by
  have hall : ∀ word ∈ keywords, word.toList.all (fun c => isWord c && c != '_') = true := by decide
  have hword := List.all_eq_true.mp (hall word h)
  simp only [Bool.and_eq_true, bne_iff_ne] at hword
  exact ⟨fun c hc => (hword c hc).1, fun hscore => (hword _ hscore).2 rfl⟩

/-- Collapsing gaps neither makes a keyword of a label nor takes one away. -/
theorem collapse_mem_keywords_iff (label : Text) :
    Text.ofList (collapse false label.toList) ∈ keywords ↔ label ∈ keywords := by
  constructor
  · intro h
    have hscore := (of_mem_keywords h).2
    rw [Text.toList_ofList] at hscore
    rwa [collapse_eq_self (isWord_of_no_score hscore), Text.ofList_toList] at h
  · intro h
    rwa [collapse_eq_self (of_mem_keywords h).1, Text.ofList_toList]

theorem isVariable_collapse_iff {label : Text} (hne : label ≠ "") :
    IsVariable (Text.ofList (collapse false label.toList)) ↔ GivesVariable label := by
  have hdigit : (∀ c ∈ (collapse false label.toList).head?, isDigit c = false) ↔
      ∀ c ∈ label.toList.head?, isDigit c = false := by
    rw [head?_collapse]
    rcases label.toList.head? with _ | c
    · simp
    · by_cases hc : isWord c = true
      · simp [hc]
      · have hnot : isDigit c = false := by
          rw [← Bool.not_eq_true]
          exact fun hdigit => hc (isWord_of_isDigit hdigit)
        simp [hc, hnot]
  constructor
  · intro h
    have hhead := h.noDigit
    rw [Text.toList_ofList] at hhead
    exact ⟨hdigit.mp hhead, fun hmem => h.noKeyword ((collapse_mem_keywords_iff label).mpr hmem)⟩
  · intro h
    refine ⟨?_, ?_, ?_, fun hmem => h.noKeyword ((collapse_mem_keywords_iff label).mp hmem)⟩
    · rw [ne_eq, Text.ofList_eq_empty_iff]
      exact collapse_ne_nil (by simpa using hne)
    · rw [Text.toList_ofList]
      exact isWord_of_mem_collapse
    · rw [Text.toList_ofList]
      exact hdigit.mpr h.noDigit

theorem isVariable_fallback_iff {fallback : Text} (h : IsVariable fallback) (index : Int) :
    IsVariable (fallback ++ "_" ++ index.repr) ↔ 0 ≤ index := by
  constructor
  · intro hname
    by_contra hneg
    have hminus : Point.scalar '-' ∈ (fallback ++ "_" ++ index.repr).toList := by
      rw [Int.repr_eq_if, if_neg hneg]
      simp
    exact absurd (hname.word '-' hminus) (by decide)
  · intro hindex
    obtain ⟨n, rfl⟩ := Int.eq_ofNat_of_zero_le hindex
    have hchars : (fallback ++ "_" ++ (n : Int).repr).toList =
        fallback.toList ++ .scalar '_' :: Text.toList (n : Int).repr := by simp
    refine ⟨?_, ?_, ?_, ?_⟩
    · rw [ne_eq, ← Text.toList_eq_nil_iff, hchars]
      simp
    · exact isWord_of_mem_identifier "" h.word n
    · obtain ⟨c, cs, hcs⟩ := List.exists_cons_of_ne_nil
        (fun hnil => h.nonempty (Text.toList_eq_nil_iff.mp hnil))
      have hdigit := h.noDigit
      rw [hcs] at hdigit
      rw [hchars, hcs]
      exact hdigit
    · intro hmem
      exact (of_mem_keywords hmem).2 (by rw [hchars]; simp)

/-- A label gives the name of a variable unless it starts with a digit or is a
keyword. An empty label does if the index behind its fallback has no sign. -/
theorem isVariable_identifier_iff {fallback : Text} (h : IsVariable fallback) (label : Text)
    (index : Int) : IsVariable (identifier label fallback index) ↔
      GivesVariable label ∧ (label = "" → 0 ≤ index) := by
  by_cases hlabel : label = ""
  · have hempty : GivesVariable "" := ⟨by simp, by decide⟩
    rw [hlabel, identifier_empty, isVariable_fallback_iff h]
    exact ⟨fun hindex => ⟨hempty, fun _ => hindex⟩, fun hboth => hboth.2 rfl⟩
  · rw [identifier_of_ne hlabel, isVariable_collapse_iff hlabel]
    exact ⟨fun hgives => ⟨hgives, fun hnone => absurd hnone hlabel⟩, And.left⟩

/-! ## Assignments -/

/-- The tokens of a value: the value that says that there is none, a variable,
an attribute of a value, or a call without arguments. -/
inductive IsValue : List Token → Prop
  | absent : IsValue [.name "None"]
  | named {name : Text} (h : IsVariable name) : IsValue [.name name]
  | member {value : List Token} {name : Text} (h : IsValue value) (hname : IsVariable name) :
      IsValue (value ++ [.member name])
  | call {value : List Token} (h : IsValue value) : IsValue (value ++ [.sign '(', .sign ')'])

/-- The one name of a variable that nothing can be assigned to. -/
def constant : Text := "__debug__"

/-- The line assigns a value to one variable. -/
def IsAssignment (line : Text) : Prop :=
  ∃ name value, line = name ++ " = " ++ value ∧ IsVariable name ∧ name ≠ constant ∧
    IsValue (tokens value)

/-- What a label must be for a line to assign to its name. -/
structure GivesTarget (label : Text) : Prop extends GivesVariable label where
  notConstant : Text.ofList (collapse false label.toList) ≠ constant

instance (label : Text) : Decidable (GivesTarget label) :=
  decidable_of_iff (GivesVariable label ∧ Text.ofList (collapse false label.toList) ≠ constant)
    ⟨fun ⟨gives, notConstant⟩ => ⟨gives, notConstant⟩,
      fun h => ⟨h.toGivesVariable, h.notConstant⟩⟩

/-- The word in front of a blank is known from the line. -/
theorem takeWhile_isWord {name : Text} (h : ∀ c ∈ name.toList, isWord c = true) (value : Text) :
    (name ++ " = " ++ value).toList.takeWhile isWord = name.toList := by
  have hchars : (name ++ " = " ++ value).toList =
      name.toList ++ .scalar ' ' :: .scalar '=' :: .scalar ' ' :: value.toList := by
    simp
  rw [hchars, List.takeWhile_append_of_pos h, List.takeWhile_cons_of_neg (by decide),
    List.append_nil]

/-- A line that has the form of an assignment is one if its name can be assigned
to. -/
theorem isAssignment_iff {name value : Text} (hword : ∀ c ∈ name.toList, isWord c = true)
    (hvalue : IsValue (tokens value)) :
    IsAssignment (name ++ " = " ++ value) ↔ IsVariable name ∧ name ≠ constant := by
  constructor
  · rintro ⟨other, rest, hline, hvariable, hconstant, _⟩
    have hfront := takeWhile_isWord hword value
    rw [hline, takeWhile_isWord hvariable.word, Text.toList_inj] at hfront
    exact hfront ▸ ⟨hvariable, hconstant⟩
  · rintro ⟨hvariable, hconstant⟩
    exact ⟨name, value, rfl, hvariable, hconstant, hvalue⟩

theorem identifier_ne_constant_iff {fallback : Text} (hne : fallback ≠ "")
    (hscore : fallback.toList.head? ≠ some (.scalar '_')) (label : Text) (index : Int) :
    identifier label fallback index ≠ constant ↔
      Text.ofList (collapse false label.toList) ≠ constant := by
  by_cases hlabel : label = ""
  · have hname : identifier "" fallback index ≠ constant := by
      intro hsame
      have hhead := congrArg (fun s => s.toList.head?) hsame
      rw [identifier_empty, Text.append_assoc] at hhead
      simp only [Text.toList_append] at hhead
      rw [List.head?_append_of_ne_nil _ (fun hnil => hne (Text.toList_eq_nil_iff.mp hnil))] at hhead
      exact hscore hhead
    rw [hlabel]
    exact iff_of_true hname (by decide)
  · rw [identifier_of_ne hlabel]

/-! ## The lines that take labels -/

/-- The code of the data and transform nodes. -/
def labelCode (g : Graph) : List Text :=
  dataCode (g.orderedOf .data) ++ transformCode (g.orderedOf .transform)

theorem codeLines_draft_labels (g : Graph) :
    ∃ rest, codeLines (draft g) = headerCode ++ (labelCode g ++ rest) := by
  have hcode : codeLines (draft g) = headerCode ++
      (stages.flatMap fun stage => stageCode (g.orderedOf stage) stage) ++ footerCode g.name :=
    codeLines_draft g
  rw [hcode, stages, List.flatMap_cons, List.flatMap_cons, ← List.append_assoc (stageCode _ .data),
    List.append_assoc, List.append_assoc]
  exact ⟨_, rfl⟩

/-- A line that takes a label assigns to its name just if it can be assigned to. -/
theorem isAssignment_identifier_iff {fallback value : Text} (hfallback : IsVariable fallback)
    (hscore : fallback.toList.head? ≠ some (.scalar '_')) (hvalue : IsValue (tokens value))
    (label : Text) (index : Nat) :
    IsAssignment (identifier label fallback index ++ " = " ++ value) ↔ GivesTarget label := by
  rw [isAssignment_iff (isWord_of_mem_identifier label hfallback.word index) hvalue,
    isVariable_identifier_iff hfallback, identifier_ne_constant_iff hfallback.nonempty hscore]
  constructor
  · rintro ⟨⟨hgives, _⟩, hconstant⟩
    exact ⟨hgives, hconstant⟩
  · rintro ⟨hgives, hconstant⟩
    exact ⟨⟨hgives, fun _ => Int.natCast_nonneg index⟩, hconstant⟩

/-- A property of all lines of numbered nodes is one of the nodes. -/
theorem forall_mem_mapIdx_iff {text : Nat → Node → Text} {p : Text → Prop} {q : Node → Prop}
    (h : ∀ index node, p (text index node) ↔ q node) (nodes : List Node) :
    (∀ line ∈ nodes.mapIdx text, p line) ↔ ∀ node ∈ nodes, q node := by
  constructor
  · intro hall node hnode
    obtain ⟨index, hlt, rfl⟩ := List.getElem_of_mem hnode
    exact (h index _).mp (hall _ (List.mem_mapIdx.mpr ⟨index, hlt, rfl⟩))
  · intro hall line hline
    obtain ⟨index, hlt, rfl⟩ := List.mem_mapIdx.mp hline
    exact (h index _).mpr (hall _ (List.getElem_mem hlt))

theorem isAssignment_data_iff (nodes : List Node) :
    (∀ line ∈ dataCode nodes, IsAssignment line) ↔ ∀ node ∈ nodes, GivesTarget node.label := by
  refine forall_mem_mapIdx_iff (fun index node => ?_) nodes
  have hline : identifier node.label "dataset" index ++ " = None  # TODO: load your dataset here" =
      identifier node.label "dataset" index ++ " = " ++ "None  # TODO: load your dataset here" := by
    rw [Text.append_assoc]
    rfl
  have hvalue : IsValue (tokens "None  # TODO: load your dataset here") := .absent
  rw [hline]
  exact isAssignment_identifier_iff (by decide) (by decide) hvalue node.label index

theorem isAssignment_transform_iff (nodes : List Node) :
    (∀ line ∈ transformCode nodes, IsAssignment line) ↔ ∀ node ∈ nodes, GivesTarget node.label := by
  refine forall_mem_mapIdx_iff (fun index node => ?_) nodes
  have hline : identifier node.label "transform" index ++
        " = nn.Identity()  # TODO: implement transform" =
      identifier node.label "transform" index ++ " = " ++
        "nn.Identity()  # TODO: implement transform" := by
    rw [Text.append_assoc]
    rfl
  have hidentity : IsVariable "Identity" := by decide
  have hvalue : IsValue (tokens "nn.Identity()  # TODO: implement transform") :=
    .call (.member (.named (by decide : IsVariable "nn")) hidentity)
  rw [hline]
  exact isAssignment_identifier_iff (by decide) (by decide) hvalue node.label index

/-- A label gives the name of a variable just if it starts with no digit and is no
keyword; an empty one needs an index without a sign. So the lines of the data and
transform nodes of a valid graph are assignments just if all their labels are
such, and none gives the one name that cannot be assigned to. -/
theorem a_label_gives_a_variable_iff (label : Text) (index : Int) {fallback : Text}
    (hfallback : fallback ∈ (["dataset", "transform"] : List Text)) :
    (IsVariable (identifier label fallback index) ↔
        GivesVariable label ∧ (label = "" → 0 ≤ index)) ∧
      ∀ g : Graph, g.problems = [] →
        (Yields g fun source =>
          ∃ rest, codeLines source = headerCode ++ (labelCode g ++ rest)) ∧
          ((∀ line ∈ labelCode g, IsAssignment line) ↔
            ∀ node ∈ g.nodes, node.is .data ∨ node.is .transform → GivesTarget node.label) := by
  constructor
  · simp only [List.mem_cons, List.not_mem_nil, or_false] at hfallback
    rcases hfallback with rfl | rfl <;> exact isVariable_identifier_iff (by decide) label index
  · intro g valid
    have hstage : ∀ stage, (∀ node ∈ g.orderedOf stage, GivesTarget node.label) ↔
        ∀ node ∈ g.nodes, node.is stage → GivesTarget node.label := by
      intro stage
      simp only [(Graph.orderedOf_perm valid stage).mem_iff, Graph.ofStage, List.mem_filter, and_imp]
    refine ⟨yields_of_draft (codeLines_draft_labels g), ?_⟩
    rw [labelCode, List.forall_mem_append, isAssignment_data_iff, isAssignment_transform_iff,
      hstage, hstage]
    simp only [or_imp, forall_and]

/-- Labels of several kinds that give names: one is empty, one all gap, and one
hides a digit and a keyword behind its first gap. -/
def labelled : Graph where
  name := "p"
  nodes := [
    { id := "a", kind := "Data", label := "Train set" }, { id := "b", kind := "Data" },
    { id := "c", kind := "Transform", label := "Данные" },
    { id := "d", kind := "Transform", label := " 2 for class" }, { id := "m", kind := "Model" },
    { id := "l", kind := "Loss" }, { id := "o", kind := "Optimizer", label := "1st" }]
  edges := [{ source := "c", target := "a" }]
  ids_nodup := by decide

theorem the_names_of_a_labelled_graph :
    ("dataset" : Text) ∈ (["dataset", "transform"] : List Text) ∧
      IsVariable (identifier "Train set" "dataset" 0) ∧
      ¬ IsVariable (identifier "2nd set" "dataset" 1) ∧
      labelled.problems = [] ∧
      (∀ node ∈ labelled.nodes, node.is .data ∨ node.is .transform → GivesTarget node.label) ∧
      ∀ line ∈ labelCode labelled, IsAssignment line := by
  have hfallback : ("dataset" : Text) ∈ (["dataset", "transform"] : List Text) := by decide
  have hgood : GivesVariable "Train set" := by decide
  have hbad : ¬ GivesVariable "2nd set" := by decide
  have valid : labelled.problems = [] := by decide +kernel
  have hlabels : ∀ node ∈ labelled.nodes, node.is .data ∨ node.is .transform →
      GivesTarget node.label := by decide +kernel
  obtain ⟨hname, hlines⟩ := a_label_gives_a_variable_iff "Train set" 0 hfallback
  refine ⟨hfallback, hname.mpr ⟨hgood, fun _ => by decide⟩, ?_, valid, hlabels,
    (hlines labelled valid).2.mpr hlabels⟩
  exact fun h => hbad ((a_label_gives_a_variable_iff "2nd set" 1 hfallback).1.mp h).1

/-- A data node whose label starts with a digit. -/
def numbered : Graph where
  name := "p"
  nodes := [
    { id := "d", kind := "Data", label := "1st" }, { id := "m", kind := "Model" },
    { id := "l", kind := "Loss" }, { id := "o", kind := "Optimizer" }]
  edges := []
  ids_nodup := by decide

/-- A digit in front of a label and a keyword are kept, and so the names are none
of variables. -/
theorem a_digit_and_a_keyword_are_no_variables :
    ¬ IsVariable (identifier "1st" "dataset" 0) ∧ ¬ IsVariable (identifier "class" "transform" 0) ∧
      numbered.problems = [] ∧ ¬ ∀ line ∈ labelCode numbered, IsAssignment line := by
  have hdata : IsVariable "dataset" := by decide
  have htransform : IsVariable "transform" := by decide
  have hdigit : ¬ GivesVariable "1st" := by decide
  have hkeyword : ¬ GivesVariable "class" := by decide
  have hordered : (numbered.orderedOf .data).map Node.label = (["1st"] : List Text) := by decide +kernel
  refine ⟨?_, ?_, by decide +kernel, fun hall => ?_⟩
  · exact fun h => hdigit ((isVariable_identifier_iff hdata "1st" 0).mp h).1
  · exact fun h => hkeyword ((isVariable_identifier_iff htransform "class" 0).mp h).1
  · have hlabels := (isAssignment_data_iff _).mp (List.forall_mem_append.mp hall).1
    have hmem : ("1st" : Text) ∈ (numbered.orderedOf .data).map Node.label := by
      rw [hordered]
      exact List.mem_singleton_self _
    obtain ⟨node, hnode, hlabel⟩ := List.mem_map.mp hmem
    exact hdigit (hlabel ▸ (hlabels node hnode).toGivesVariable)

end PipelineBoard.Script
