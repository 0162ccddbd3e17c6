-- The scope of a script: at each line of code that reads a name of the script's
-- own, where the last line above comes from that binds it.
import PipelineBoard.Proofs.Script.Feet

namespace PipelineBoard.Script

open Text

/-! ## The lines of a script -/

/-- Where a line of a script comes from. -/
inductive Origin where
  | header
  | fragment (stage : Stage)
  | footer
deriving DecidableEq

structure Line where
  origin : Origin
  text : Text

/-- The lines of code of a script. -/
def lines (g : Graph) : List Line :=
  headerCode.map (Line.mk .header) ++
    (stages.flatMap fun stage =>
      (stageCode (g.orderedOf stage) stage).map (Line.mk (.fragment stage))) ++
    (footerCode g.name).map (Line.mk .footer)

/-- The line names a variable after the label of its node. -/
def Line.TakesLabel (line : Line) : Prop :=
  line.origin = .fragment .data ∨ line.origin = .fragment .transform

instance (line : Line) : Decidable line.TakesLabel := inferInstanceAs (Decidable (_ ∨ _))

/-- Where the last line comes from that binds a name. -/
def lastBinder (name : Name) (above : List Line) : Option Origin :=
  (above.filter fun line => (uses line.text).binds.contains name.text).getLast?.map Line.origin

theorem map_text_lines (g : Graph) : (lines g).map Line.text = codeLines (draft g) := by
  have hsame : ∀ (origin : Origin) (texts : List Text),
      (texts.map (Line.mk origin)).map Line.text = texts := by
    intro origin texts
    rw [List.map_map]
    exact List.map_id texts
  rw [codeLines_draft]
  unfold lines scriptCode
  rw [List.map_append, List.map_append, hsame, hsame, List.map_flatMap]
  simp only [hsame]
  rfl

/-! ## The last line that binds a name -/

section

variable {name : Name} {above others : List Line}

theorem lastBinder_append : lastBinder name (above ++ others) =
    (lastBinder name others).or (lastBinder name above) := by
  unfold lastBinder
  rw [List.filter_append, List.getLast?_append, Option.map_or]

theorem lastBinder_eq_none (h : ∀ line ∈ above, name.text ∉ (uses line.text).binds) :
    lastBinder name above = none := by
  unfold lastBinder
  rw [List.filter_eq_nil_iff.mpr]
  · rfl
  · intro line hline
    simpa using h line hline

theorem exists_of_lastBinder {origin : Origin} (h : lastBinder name above = some origin) :
    ∃ line ∈ above, line.origin = origin ∧ name.text ∈ (uses line.text).binds := by
  unfold lastBinder at h
  rw [Option.map_eq_some_iff] at h
  obtain ⟨line, hlast, horigin⟩ := h
  obtain ⟨hline, hbinds⟩ := List.mem_filter.mp (List.mem_of_getLast? hlast)
  exact ⟨line, hline, horigin, by simpa using hbinds⟩

/-- If all the lines that bind a name come from one place, so does the last. -/
theorem lastBinder_eq_some {origin : Origin}
    (hsome : ∃ line ∈ above, name.text ∈ (uses line.text).binds)
    (hall : ∀ line ∈ above, name.text ∈ (uses line.text).binds → line.origin = origin) :
    lastBinder name above = some origin := by
  rcases hlast : lastBinder name above with _ | other
  · obtain ⟨line, hline, hbinds⟩ := hsome
    unfold lastBinder at hlast
    rw [Option.map_eq_none_iff, List.getLast?_eq_none_iff, List.filter_eq_nil_iff] at hlast
    exact absurd (by simpa using hbinds) (hlast line hline)
  · obtain ⟨line, hline, rfl, hbinds⟩ := exists_of_lastBinder hlast
    rw [hall line hline hbinds]

end

/-! ## The parts of a script -/

def headerLines : List Line := headerCode.map (Line.mk .header)

/-- The lines of the data and transform nodes. -/
def labelLines (g : Graph) : List Line :=
  (dataCode (g.orderedOf .data)).map (Line.mk (.fragment .data)) ++
    (transformCode (g.orderedOf .transform)).map (Line.mk (.fragment .transform))

/-- The stages that bind no names but their own, in the order of their
fragments. -/
def ownStages : List Stage := [.split, .model, .loss, .optimizer, .trainer, .metric]

def ownLines (g : Graph) : List Line :=
  (ownStages.flatMap fun stage =>
    (stageCode (g.orderedOf stage) stage).map (Line.mk (.fragment stage))) ++
    (footerCode g.name).map (Line.mk .footer)

theorem lines_eq (g : Graph) : lines g = headerLines ++ (labelLines g ++ ownLines g) := by
  unfold lines headerLines labelLines ownLines stages ownStages
  simp only [List.flatMap_cons, List.flatMap_nil, stageCode, List.map_nil, List.append_nil,
    List.append_assoc]

/-- The footprints of the fragment of a stage. -/
def fragmentFeet : Stage → List Foot
  | .split => splitFeet
  | .model => modelFeet
  | .loss => lossFeet
  | .optimizer => optimizerFeet
  | .trainer => trainerFeet
  | .metric => metricFeet
  | _ => []

theorem feet_fragment {stage : Stage} (hstage : stage ∈ ownStages) (nodes : List Node) :
    HaveFeet (stageCode nodes stage) (if nodes.isEmpty then [] else fragmentFeet stage) := by
  simp only [ownStages, List.mem_cons, List.not_mem_nil, or_false] at hstage
  cases nodes with
  | nil => rcases hstage with rfl | rfl | rfl | rfl | rfl | rfl <;> exact haveFeet_nil
  | cons node rest =>
    rcases hstage with rfl | rfl | rfl | rfl | rfl | rfl
    · exact feet_split
    · exact feet_model
    · exact feet_loss
    · exact feet_optimizer node
    · exact feet_trainer node
    · exact feet_metric

/-- A line reduced to where it comes from and its footprint. -/
structure Mark where
  origin : Origin
  foot : Foot
deriving DecidableEq

def Line.mark (line : Line) : Mark := ⟨line.origin, foot line.text⟩

theorem mem_binds_mark {line : Line} {name : Name} :
    name ∈ line.mark.foot.binds ↔ name.text ∈ (uses line.text).binds := mem_known

theorem mem_reads_mark {line : Line} {name : Name} :
    name ∈ line.mark.foot.reads ↔ name.text ∈ (uses line.text).reads := mem_known

theorem map_mark {origin : Origin} {texts : List Text} {feet : List Foot}
    (h : HaveFeet texts feet) :
    (texts.map (Line.mk origin)).map Line.mark = feet.map (Mark.mk origin) := by
  rw [← h, List.map_map, List.map_map]
  rfl

/-- The marks of the script's own lines behind the header, for each set of
optional stages that the graph has. -/
def ownMarks (split trainer metric : Bool) : List Mark :=
  (if split then splitFeet.map (Mark.mk (.fragment .split)) else []) ++
    (modelFeet.map (Mark.mk (.fragment .model)) ++
    (lossFeet.map (Mark.mk (.fragment .loss)) ++
    (optimizerFeet.map (Mark.mk (.fragment .optimizer)) ++
    ((if trainer then trainerFeet.map (Mark.mk (.fragment .trainer)) else []) ++
    ((if metric then metricFeet.map (Mark.mk (.fragment .metric)) else []) ++
    footerFeet.map (Mark.mk .footer))))))

/-- The graph has a node of the stage. -/
def has (g : Graph) (stage : Stage) : Bool := !(g.ofStage stage).isEmpty

theorem has_of_mem_required {g : Graph} (valid : g.problems = []) {stage : Stage}
    (h : stage ∈ Stage.required) : has g stage = true := by
  have := Graph.ofStage_ne_nil valid h
  simpa [has] using this

theorem map_mark_ownLines {g : Graph} (valid : g.problems = []) :
    (ownLines g).map Line.mark = ownMarks (has g .split) (has g .trainer) (has g .metric) := by
  have hfragment : ∀ stage ∈ ownStages,
      ((stageCode (g.orderedOf stage) stage).map (Line.mk (.fragment stage))).map Line.mark =
        if has g stage then (fragmentFeet stage).map (Mark.mk (.fragment stage)) else [] := by
    intro stage hstage
    rw [map_mark (feet_fragment hstage (g.orderedOf stage)), Graph.isEmpty_orderedOf valid, has]
    cases (g.ofStage stage).isEmpty <;> rfl
  have hmodel := has_of_mem_required valid (by decide : Stage.model ∈ Stage.required)
  have hloss := has_of_mem_required valid (by decide : Stage.loss ∈ Stage.required)
  have hoptimizer := has_of_mem_required valid (by decide : Stage.optimizer ∈ Stage.required)
  unfold ownLines
  rw [List.map_append, map_mark (feet_footer g.name), List.map_flatMap,
    List.flatMap_congr hfragment]
  simp only [ownStages, List.flatMap_cons, List.flatMap_nil, hmodel, hloss, hoptimizer, if_true,
    fragmentFeet, ownMarks, List.append_assoc, List.append_nil]

/-! ## Names in scope -/

theorem map_mark_headerLines : headerLines.map Line.mark = headerFeet.map (Mark.mk .header) :=
  map_mark feet_header

/-- In the header every name that is read is one of the header's, bound above. -/
theorem scope_header : ∀ i, (h : i < (headerFeet.map (Mark.mk .header)).length) →
    ∀ name ∈ (headerFeet.map (Mark.mk .header))[i].foot.reads, name.stage? = none ∧
      ∃ mark ∈ (headerFeet.map (Mark.mk .header)).take i, name ∈ mark.foot.binds := by decide

/-- The header binds the names that no stage does. -/
theorem binds_header : ∀ name : Name,
    (∃ mark ∈ headerFeet.map (Mark.mk .header), name ∈ mark.foot.binds) ↔ name.stage? = none := by
  intro name
  cases name <;> decide

/-- Behind the header a name is bound by the fragment of its stage only. -/
theorem binds_own : ∀ split trainer metric, ∀ mark ∈ ownMarks split trainer metric,
    ∀ name ∈ mark.foot.binds, ∃ stage ∈ name.stage?, mark.origin = .fragment stage := by decide

/-- The stages that a pipeline has, if it has these two or not. -/
def present (split trainer : Bool) : Stage → Bool
  | .split => split
  | .trainer => trainer
  | _ => true

/-- Behind the header, a name of a stage that is read is bound above just if
the pipeline has the stage. -/
theorem scope_own : ∀ split trainer metric, ∀ i, (h : i < (ownMarks split trainer metric).length) →
    ∀ name ∈ (ownMarks split trainer metric)[i].foot.reads, ∀ stage ∈ name.stage?,
      ((∃ mark ∈ (ownMarks split trainer metric).take i, name ∈ mark.foot.binds) ↔
        present split trainer stage = true) := by decide +kernel

theorem present_eq {g : Graph} (valid : g.problems = []) {name : Name} {stage : Stage}
    (h : name.stage? = some stage) :
    present (has g .split) (has g .trainer) stage = has g stage := by
  have hrequired : ∀ stage ∈ Stage.required, has g stage = true :=
    fun _ => has_of_mem_required valid
  cases name with
  | torch | nn | optim | dataLoader | device => cases h
  | trainDs | valDs | trainLoader | valLoader =>
    cases h
    rfl
  | model | criterion | optimizer =>
    cases h
    exact (hrequired _ (by decide)).symm

/-- A place in two lists in a row is in the first of them or in the second. -/
theorem of_append_eq {first second above below : List Line} {line : Line}
    (h : first ++ second = above ++ line :: below) :
    (∃ rest, first = above ++ line :: rest) ∨
      ∃ start, above = first ++ start ∧ second = start ++ line :: below := by
  rcases List.append_eq_append_iff.mp h with ⟨start, habove, hsecond⟩ | ⟨rest, hfirst, hbelow⟩
  · exact Or.inr ⟨start, habove, hsecond⟩
  · cases rest with
    | nil =>
      rw [List.append_nil] at hfirst
      rw [List.nil_append] at hbelow
      exact Or.inr ⟨[], by rw [List.append_nil, hfirst], hbelow.symm⟩
    | cons other rest =>
      rw [List.cons_append, List.cons.injEq] at hbelow
      exact Or.inl ⟨rest, by rw [hfirst, hbelow.1]⟩

/-- The mark at a place and the marks above it. -/
theorem marks_at {all above below : List Line} {line : Line} {marks : List Mark}
    (hmarks : all.map Line.mark = marks) (h : all = above ++ line :: below) :
    ∃ hlt : above.length < marks.length, marks[above.length] = line.mark ∧
      marks.take above.length = above.map Line.mark := by
  subst hmarks h
  simp

theorem exists_binder_iff {above : List Line} {name : Name} :
    (∃ mark ∈ above.map Line.mark, name ∈ mark.foot.binds) ↔
      ∃ line ∈ above, name.text ∈ (uses line.text).binds := by
  simp [mem_binds_mark]

/-- What the header binds, it binds last among its lines. -/
theorem lastBinder_headerLines {name : Name} :
    lastBinder name headerLines = if name.stage? = none then some .header else none := by
  have hbinds := binds_header name
  rw [← map_mark_headerLines, exists_binder_iff] at hbinds
  split
  · rename_i hname
    apply lastBinder_eq_some (hbinds.mpr hname)
    intro line hline _
    obtain ⟨text, _, rfl⟩ := List.mem_map.mp hline
    rfl
  · rename_i hname
    apply lastBinder_eq_none
    intro line hline hbound
    exact hname (hbinds.mp ⟨line, hline, hbound⟩)

/-- A line that takes a label reads no name of a stage. -/
theorem of_mem_labelLines {g : Graph} {line : Line} (h : line ∈ labelLines g) :
    line.TakesLabel ∧ ∀ name : Name, name.text ∈ (uses line.text).reads → name.stage? = none := by
  have hnone : ∀ name : Name, name.text ∈ (["None"] : List Text) → name.stage? = none := by
    intro name
    cases name <;> decide
  have hnn : ∀ name : Name, name.text ∈ (["nn"] : List Text) → name.stage? = none := by
    intro name
    cases name <;> decide
  rcases List.mem_append.mp h with h | h
  · obtain ⟨text, htext, rfl⟩ := List.mem_map.mp h
    obtain ⟨index, _, rfl⟩ := List.mem_mapIdx.mp htext
    refine ⟨Or.inl rfl, fun name hread => hnone name ?_⟩
    rw [uses_data] at hread
    exact hread
  · obtain ⟨text, htext, rfl⟩ := List.mem_map.mp h
    obtain ⟨index, _, rfl⟩ := List.mem_mapIdx.mp htext
    refine ⟨Or.inr rfl, fun name hread => hnn name ?_⟩
    rw [uses_transform] at hread
    exact hread

/-- What the script's own lines behind the header bind. -/
theorem origin_of_mem_ownLines {g : Graph} (valid : g.problems = []) {line : Line}
    (h : line ∈ ownLines g) {name : Name} (hbinds : name.text ∈ (uses line.text).binds) :
    ∃ stage, name.stage? = some stage ∧ line.origin = .fragment stage := by
  have hmark : line.mark ∈ ownMarks (has g .split) (has g .trainer) (has g .metric) := by
    rw [← map_mark_ownLines valid]
    exact List.mem_map_of_mem h
  exact binds_own _ _ _ line.mark hmark name (mem_binds_mark.mpr hbinds)

/-- No line down to the labels comes from a stage that binds names of its own. -/
theorem origin_ne_of_mem_front {g : Graph} {line : Line} (h : line ∈ headerLines ++ labelLines g)
    {name : Name} {stage : Stage} (hname : name.stage? = some stage) :
    line.origin ≠ .fragment stage := by
  intro horigin
  rcases List.mem_append.mp h with h | h
  · obtain ⟨text, _, rfl⟩ := List.mem_map.mp h
    cases horigin
  · rcases (of_mem_labelLines h).1 with hlabel | hlabel
    · rw [hlabel, Origin.fragment.injEq] at horigin
      subst horigin
      cases name <;> cases hname
    · rw [hlabel, Origin.fragment.injEq] at horigin
      subst horigin
      cases name <;> cases hname

section

variable {g : Graph} {above below : List Line} {line : Line} {name : Name}

/-- In the header. -/
theorem scope_at_header (h : headerLines = above ++ line :: below)
    (hread : name.text ∈ (uses line.text).reads) :
    name.stage? = none ∧ lastBinder name above = some .header := by
  obtain ⟨hlt, hline, habove⟩ := marks_at map_mark_headerLines h
  have hscope := scope_header above.length hlt name (by rw [hline]; exact mem_reads_mark.mpr hread)
  rw [habove, exists_binder_iff] at hscope
  refine ⟨hscope.1, lastBinder_eq_some hscope.2 fun other hother _ => ?_⟩
  have hmem : other ∈ headerLines := by
    rw [h]
    exact List.mem_append_left _ hother
  obtain ⟨text, _, rfl⟩ := List.mem_map.mp hmem
  rfl

/-- Below the header, a name of the header is still its own unless a line that
takes a label has taken it. -/
theorem scope_of_header_name (valid : g.problems = []) (labels own : List Line)
    (hlabels : ∀ other ∈ labels, other ∈ labelLines g) (hown : ∀ other ∈ own, other ∈ ownLines g)
    (hname : name.stage? = none)
    (hfree : ∀ other ∈ labels, other.TakesLabel → name.text ∉ (uses other.text).binds) :
    lastBinder name (headerLines ++ (labels ++ own)) = some .header := by
  have hnone : lastBinder name own = none := by
    apply lastBinder_eq_none
    intro other hother hbinds
    obtain ⟨stage, hstage, _⟩ := origin_of_mem_ownLines valid (hown other hother) hbinds
    rw [hname] at hstage
    cases hstage
  have hfresh : lastBinder name labels = none := by
    apply lastBinder_eq_none
    intro other hother
    exact hfree other hother (of_mem_labelLines (hlabels other hother)).1
  rw [lastBinder_append, lastBinder_append, hnone, hfresh, lastBinder_headerLines, if_pos hname]
  rfl

/-- Below the header and the labels, the name of a stage that is read is its
own just if the graph has the stage. -/
theorem scope_of_stage_name (valid : g.problems = []) (h : ownLines g = above ++ line :: below)
    (hread : name.text ∈ (uses line.text).reads) {stage : Stage}
    (hname : name.stage? = some stage) :
    lastBinder name (headerLines ++ (labelLines g ++ above)) = some (.fragment stage) ↔
      has g stage = true := by
  obtain ⟨hlt, hline, habove⟩ := marks_at (map_mark_ownLines valid) h
  have hscope := scope_own _ _ _ above.length hlt name
    (by rw [hline]; exact mem_reads_mark.mpr hread) stage hname
  rw [habove, exists_binder_iff, present_eq valid hname] at hscope
  rw [← hscope]
  constructor
  · intro hlast
    obtain ⟨other, hother, horigin, hbinds⟩ := exists_of_lastBinder hlast
    rw [← List.append_assoc] at hother
    rcases List.mem_append.mp hother with hother | hother
    · exact absurd horigin (origin_ne_of_mem_front hother hname)
    · exact ⟨other, hother, hbinds⟩
  · intro hbound
    have hlast : lastBinder name above = some (.fragment stage) := by
      apply lastBinder_eq_some hbound
      intro other hother hbinds
      have hmem : other ∈ ownLines g := by
        rw [h]
        exact List.mem_append_left _ hother
      obtain ⟨home, hhome, horigin⟩ := origin_of_mem_ownLines valid hmem hbinds
      rw [hname, Option.some.injEq] at hhome
      rw [horigin, hhome]
    rw [lastBinder_append, lastBinder_append, hlast]
    rfl

end

/-- At each line of code of a valid graph's script that reads one of the names,
and of the lines above it: a name of the header was last bound by the header,
unless a line that takes a label has taken it; a name of a stage was last bound
by the fragment of the stage just if the graph has a node of the stage, as it
has of the required ones. -/
theorem the_names_of_a_script_are_in_scope (g : Graph) (valid : g.problems = []) :
    (Yields g fun source => (lines g).map Line.text = codeLines source) ∧
      ∀ above line below, lines g = above ++ line :: below →
        ∀ name : Name, name.text ∈ (uses line.text).reads →
          (name.stage? = none →
            (∀ other ∈ above, other.TakesLabel → name.text ∉ (uses other.text).binds) →
              lastBinder name above = some .header) ∧
          ∀ stage, name.stage? = some stage →
            (lastBinder name above = some (.fragment stage) ↔ g.ofStage stage ≠ []) ∧
            (stage ∈ Stage.required → lastBinder name above = some (.fragment stage)) := by
  refine ⟨yields_of_draft (map_text_lines g), fun above line below hlines name hread => ?_⟩
  have hstage : ∀ stage, (lastBinder name above = some (.fragment stage) ↔ has g stage = true) →
      (lastBinder name above = some (.fragment stage) ↔ g.ofStage stage ≠ []) ∧
        (stage ∈ Stage.required → lastBinder name above = some (.fragment stage)) := by
    intro stage hscope
    have hsome : has g stage = true ↔ g.ofStage stage ≠ [] := by simp [has]
    exact ⟨hscope.trans hsome, fun hrequired => hscope.mpr (has_of_mem_required valid hrequired)⟩
  rw [lines_eq] at hlines
  rcases of_append_eq hlines with ⟨rest, hheader⟩ | ⟨start, rfl, hrest⟩
  · obtain ⟨hname, hlast⟩ := scope_at_header hheader hread
    refine ⟨fun _ _ => hlast, fun stage hsome => ?_⟩
    rw [hname] at hsome
    cases hsome
  rcases of_append_eq hrest with ⟨rest, hlabel⟩ | ⟨own, rfl, hown⟩
  · have hmem : ∀ other ∈ start ++ line :: rest, other ∈ labelLines g := by
      intro other hother
      rw [hlabel]
      exact hother
    have hname := (of_mem_labelLines (hmem line (by simp))).2 name hread
    refine ⟨fun _ hfree => ?_, fun stage hsome => ?_⟩
    · have hscope := scope_of_header_name valid start []
        (fun other hother => hmem other (List.mem_append_left _ hother)) (by simp) hname
        fun other hother => hfree other (List.mem_append_right _ hother)
      rw [List.append_nil] at hscope
      exact hscope
    · rw [hname] at hsome
      cases hsome
  · refine ⟨fun hname hfree => ?_, fun stage hsome => ?_⟩
    · apply scope_of_header_name valid (labelLines g) own (fun _ hother => hother) ?_ hname
      · intro other hother
        exact hfree other (List.mem_append_right _ (List.mem_append_left _ hother))
      · intro other hother
        rw [hown]
        exact List.mem_append_left _ hother
    · exact hstage stage (scope_of_stage_name valid hown hread hsome)

/-- A pipeline whose data node is labelled like the model. -/
def namesake : Graph where
  name := "p"
  nodes := [
    { id := "d", kind := "Data", label := "model" }, { id := "s", kind := "Split" },
    { id := "m", kind := "Model" }, { id := "l", kind := "Loss" },
    { id := "o", kind := "Optimizer" }, { id := "t", kind := "Trainer" }]
  edges := []
  ids_nodup := by decide

theorem the_scope_of_a_namesake :
    namesake.problems = [] ∧
      (∃ source, emit namesake = .ok source ∧ (lines namesake).map Line.text = codeLines source) ∧
      (lines namesake)[15]?.map Line.text =
        some "optimizer = optim.Adam(model.parameters(), lr=0.001)" ∧
      lastBinder .optim ((lines namesake).take 15) = some .header ∧
      lastBinder .model ((lines namesake).take 15) = some (.fragment .model) ∧
      (lines namesake)[16]?.map Line.text =
        some "train_loader = DataLoader(train_ds, batch_size=64, shuffle=True)  # TODO" ∧
      lastBinder .trainDs ((lines namesake).take 16) = some (.fragment .split) := by
  have valid : namesake.problems = [] := by decide +kernel
  have hrate : (lines namesake)[15]?.map Line.text =
      some "optimizer = optim.Adam(model.parameters(), lr=0.001)" := by decide +kernel
  have hloader : (lines namesake)[16]?.map Line.text =
      some "train_loader = DataLoader(train_ds, batch_size=64, shuffle=True)  # TODO" := by
    decide +kernel
  have hcut : ∀ i text, (lines namesake)[i]?.map Line.text = some text → ∃ line below,
      lines namesake = (lines namesake).take i ++ line :: below ∧ line.text = text := by
    intro i text h
    obtain ⟨line, hline, htext⟩ := Option.map_eq_some_iff.mp h
    obtain ⟨hlt, rfl⟩ := List.getElem?_eq_some_iff.mp hline
    refine ⟨_, (lines namesake).drop (i + 1), ?_, htext⟩
    rw [← List.drop_eq_getElem_cons hlt, List.take_append_drop]
  obtain ⟨htext, hscope⟩ := the_names_of_a_script_are_in_scope namesake valid
  obtain ⟨rate, _, hlines, hrateText⟩ := hcut 15 _ hrate
  have hatRate := hscope _ rate _ hlines
  rw [hrateText] at hatRate
  obtain ⟨loader, _, hlines, hloaderText⟩ := hcut 16 _ hloader
  have hatLoader := hscope _ loader _ hlines
  rw [hloaderText] at hatLoader
  refine ⟨valid, htext.exists_source (by decide +kernel), hrate, ?_, ?_, hloader, ?_⟩
  · exact (hatRate .optim (by decide +kernel)).1 rfl (by decide +kernel)
  · exact ((hatRate .model (by decide +kernel)).2 .model rfl).2 (by decide)
  · exact ((hatLoader .trainDs (by decide +kernel)).2 .split rfl).1.mpr (by decide)

/-- Each name that a line reads was last bound by the header, or by the
fragment of the stage that it belongs to. -/
def WellScoped (script : List Line) : Prop :=
  ∀ above line below, script = above ++ line :: below →
    ∀ name : Name, name.text ∈ (uses line.text).reads →
      lastBinder name above = some (name.stage?.elim .header .fragment)

/-- The line at a place behind the labels, and the lines above it. -/
theorem exists_line {g : Graph} (valid : g.problems = []) {split trainer metric : Bool}
    (hstages : has g .split = split ∧ has g .trainer = trainer ∧ has g .metric = metric) (i : Nat)
    (hlt : i < (ownMarks split trainer metric).length) {name : Name}
    (hread : name ∈ (ownMarks split trainer metric)[i].foot.reads) :
    ∃ own line below, ownLines g = own ++ line :: below ∧
      lines g = headerLines ++ (labelLines g ++ own) ++ line :: below ∧
      name.text ∈ (uses line.text).reads := by
  obtain ⟨rfl, rfl, rfl⟩ := hstages
  have hmarks := map_mark_ownLines valid
  have hlength : i < (ownLines g).length := by
    rw [← hmarks, List.length_map] at hlt
    exact hlt
  have hmark : (ownLines g)[i].mark =
      (ownMarks (has g .split) (has g .trainer) (has g .metric))[i] := by
    simp only [← hmarks, List.getElem_map]
  have hcut : ownLines g = (ownLines g).take i ++ (ownLines g)[i] :: (ownLines g).drop (i + 1) := by
    rw [← List.drop_eq_getElem_cons hlength, List.take_append_drop]
  refine ⟨_, _, _, hcut, ?_, mem_reads_mark.mp (by rw [hmark]; exact hread)⟩
  rw [lines_eq, List.append_assoc, List.append_assoc, ← hcut]

/-- A name of a stage that the graph lacks is read, but not bound. -/
theorem not_wellScoped_of_lack {g : Graph} (valid : g.problems = []) {split trainer metric : Bool}
    (hstages : has g .split = split ∧ has g .trainer = trainer ∧ has g .metric = metric) (i : Nat)
    (hlt : i < (ownMarks split trainer metric).length) {name : Name}
    (hread : name ∈ (ownMarks split trainer metric)[i].foot.reads) {stage : Stage}
    (hname : name.stage? = some stage) (hlack : has g stage = false) : ¬ WellScoped (lines g) := by
  intro hscoped
  obtain ⟨own, line, below, hown, hlines, hread⟩ := exists_line valid hstages i hlt hread
  have hlast := hscoped _ line below hlines name hread
  rw [hname] at hlast
  have hsome := (scope_of_stage_name valid hown hread hname).mp hlast
  rw [hlack] at hsome
  cases hsome

/-- A name of the header that a label has taken is read all the same. -/
theorem not_wellScoped_of_label {g : Graph} (valid : g.problems = []) {split trainer metric : Bool}
    (hstages : has g .split = split ∧ has g .trainer = trainer ∧ has g .metric = metric) (i : Nat)
    (hlt : i < (ownMarks split trainer metric).length) {name : Name}
    (hread : name ∈ (ownMarks split trainer metric)[i].foot.reads) (hname : name.stage? = none)
    {stage : Stage} (htaken : lastBinder name (labelLines g) = some (.fragment stage)) :
    ¬ WellScoped (lines g) := by
  intro hscoped
  obtain ⟨own, line, below, hown, hlines, hread⟩ := exists_line valid hstages i hlt hread
  have hlast := hscoped _ line below hlines name hread
  have hnone : lastBinder name own = none := by
    apply lastBinder_eq_none
    intro other hother hbinds
    have hmem : other ∈ ownLines g := by
      rw [hown]
      exact List.mem_append_left _ hother
    obtain ⟨home, hhome, _⟩ := origin_of_mem_ownLines valid hmem hbinds
    rw [hname] at hhome
    cases hhome
  rw [lastBinder_append, lastBinder_append, hnone, htaken, hname] at hlast
  cases hlast

/-- A trainer without a split. -/
def unsplit : Graph where
  name := "p"
  nodes := [
    { id := "m", kind := "Model" }, { id := "l", kind := "Loss" },
    { id := "o", kind := "Optimizer" }, { id := "t", kind := "Trainer" }]
  edges := []
  ids_nodup := by decide

/-- A metric without a trainer. -/
def unloaded : Graph where
  name := "p"
  nodes := [
    { id := "m", kind := "Model" }, { id := "l", kind := "Loss" },
    { id := "o", kind := "Optimizer" }, { id := "a", kind := "Metric" }]
  edges := []
  ids_nodup := by decide

/-- A data node under the label of a module. -/
def eclipsed : Graph where
  name := "p"
  nodes := [
    { id := "d", kind := "Data", label := "torch" }, { id := "m", kind := "Model" },
    { id := "l", kind := "Loss" }, { id := "o", kind := "Optimizer" }]
  edges := []
  ids_nodup := by decide

theorem not_every_script_is_well_scoped :
    (unsplit.problems = [] ∧ ¬ WellScoped (lines unsplit)) ∧
      (unloaded.problems = [] ∧ ¬ WellScoped (lines unloaded)) ∧
      (eclipsed.problems = [] ∧ ¬ WellScoped (lines eclipsed)) := by
  have hunsplit : unsplit.problems = [] := by decide +kernel
  have hunloaded : unloaded.problems = [] := by decide +kernel
  have heclipsed : eclipsed.problems = [] := by decide +kernel
  have htaken : lastBinder .torch (labelLines eclipsed) = some (.fragment .data) := by
    decide +kernel
  refine ⟨⟨hunsplit, ?_⟩, ⟨hunloaded, ?_⟩, ⟨heclipsed, ?_⟩⟩
  · have hstages : has unsplit .split = false ∧ has unsplit .trainer = true ∧
        has unsplit .metric = false := by decide
    have hread : Name.trainDs ∈ (ownMarks false true false)[9].foot.reads := by decide
    exact not_wellScoped_of_lack hunsplit hstages 9 (by decide) hread rfl hstages.1
  · have hstages : has unloaded .split = false ∧ has unloaded .trainer = false ∧
        has unloaded .metric = true := by decide
    have hread : Name.valLoader ∈ (ownMarks false false true)[13].foot.reads := by decide
    exact not_wellScoped_of_lack hunloaded hstages 13 (by decide) hread rfl hstages.2.1
  · have hstages : has eclipsed .split = false ∧ has eclipsed .trainer = false ∧
        has eclipsed .metric = false := by decide
    have hread : Name.torch ∈ (ownMarks false false false)[9].foot.reads := by decide
    exact not_wellScoped_of_label heclipsed hstages 9 (by decide) hread rfl htaken

end PipelineBoard.Script
