-- The params of a node in the comments of a script. They lose nothing: without
-- the marks in front of its lines the comment is JSON text for the same params.
import PipelineBoard.Proofs.Graph.Ids
import PipelineBoard.Proofs.Json.RoundTrip
import PipelineBoard.Proofs.Script.Layout

namespace PipelineBoard

open Text

/-! ## Comments without their marks -/

namespace Text

/-- The pieces of a cut text are the text again once line feeds join them. -/
theorem intercalate_cutAtFeeds (cs : List Point) : [.scalar '\n'].intercalate (cutAtFeeds cs) = cs := by
  induction cs with
  | nil => rfl
  | cons c cs ih =>
    obtain ⟨piece, pieces, hcut⟩ := List.exists_cons_of_ne_nil (cutAtFeeds_ne_nil cs)
    rw [hcut] at ih
    by_cases hc : c = '\n'
    · rw [cutAtFeeds, if_pos hc, hcut, List.intercalate_cons_cons, ih, hc]
      rfl
    · rw [cutAtFeeds, if_neg hc, hcut]
      cases pieces with
      | nil => simpa using ih
      | cons next others =>
        rw [List.intercalate_cons_cons] at ih ⊢
        rw [← ih]
        rfl

end Text

namespace Params

/-- A line without the mark in front of it. -/
def withoutMark (mark line : Text) : Text := Text.ofList (line.toList.drop mark.length)

/-- The text of a comment on params: the first line says what it is. -/
def uncommented : List Text → Text
  | [] => ""
  | first :: rest =>
    Text.intercalate "\n" (withoutMark "# params: " first :: rest.map (withoutMark "# "))

theorem withoutMark_append (mark line : Text) : withoutMark mark (mark ++ line) = line := by
  unfold withoutMark
  rw [Text.toList_append, ← Text.length_toList, List.drop_left, Text.ofList_toList]

theorem exists_commentLines (params : Fields) :
    ∃ first rest, cutAtFeeds (Json.render 0 (.object params)) = first :: rest ∧
      commentLines params = ("# params: " ++ Text.ofList first) ::
        rest.map fun line => "# " ++ Text.ofList line := by
  obtain ⟨first, rest, hcut⟩ :=
    List.exists_cons_of_ne_nil (cutAtFeeds_ne_nil (Json.render 0 (.object params)))
  refine ⟨first, rest, hcut, ?_⟩
  unfold commentLines
  rw [hcut]

/-- Without its marks a comment is the text of its params. -/
theorem uncommented_commentLines (params : Fields) :
    uncommented (commentLines params) = Text.ofList (Json.render 0 (.object params)) := by
  obtain ⟨first, rest, hcut, hlines⟩ := exists_commentLines params
  have hrest : (rest.map fun line => "# " ++ Text.ofList line).map (withoutMark "# ") =
      rest.map Text.ofList := by
    rw [List.map_map]
    exact List.map_congr_left fun line _ => withoutMark_append _ _
  have hjoined := intercalate_cutAtFeeds (Json.render 0 (.object params))
  rw [hlines, uncommented, withoutMark_append, hrest, ← List.map_cons, ← hcut]
  rw [← Text.toList_inj, Text.toList_intercalate, Text.toList_ofList]
  simp only [List.map_map, Function.comp_def, List.map_id']
  exact hjoined

example : commentLines [("size", .list [.int 28, .list []]),
      ("norm", .object [("mean", .real (Decimal.toBinary false 5 (-1)))])] = [
    "# params: \x7b", "#   \"size\": [", "#     28,", "#     []", "#   ],", "#   \"norm\": \x7b",
    "#     \"mean\": 0.5", "#   \x7d", "# \x7d"] := by decide +kernel

/-- Every line is a comment, and the first one says what it is about. -/
theorem marked_commentLines (params : Fields) :
    (∀ line ∈ commentLines params, (Text.toList "# ") <+: line.toList) ∧
      ∀ first ∈ (commentLines params).head?, (Text.toList "# params: ") <+: first.toList := by
  obtain ⟨first, rest, _, hlines⟩ := exists_commentLines params
  have hmark : ∀ mark line : Text, mark.toList <+: (mark ++ line).toList := by
    intro mark line
    rw [Text.toList_append]
    exact List.prefix_append _ _
  rw [hlines]
  constructor
  · intro line hline
    rcases List.mem_cons.mp hline with rfl | hline
    · have hfirst := hmark "# params: " (Text.ofList first)
      exact List.IsPrefix.trans (by decide) hfirst
    · obtain ⟨piece, _, rfl⟩ := List.mem_map.mp hline
      exact hmark _ _
  · intro line hline
    rw [List.head?_cons, Option.mem_some_iff] at hline
    rw [← hline]
    exact hmark _ _

end Params

/-! ## Reading a comment -/

namespace Json

/-- The text of an object is not blank. -/
theorem isAllBlank_render_object (fields : Fields) :
    isAllBlank (Text.ofList (render 0 (.object fields))) = false := by
  have hbrace : Point.scalar '{' ∈ render 0 (.object fields) := by
    rw [render]
    split <;> simp
  rw [isAllBlank, Text.toList_ofList, List.all_eq_false]
  exact ⟨'{', hbrace, by decide⟩

end Json

/-- The comment on params is read as the params, for any node of a graph. -/
theorem Graph.parseParams_uncommented {g : Graph} {id : Text} (hid : id ∈ g.ids)
    {params : Fields} (plain : Json.allFieldsPlain params = true)
    (readable : (Json.object params).isReadable = true) :
    g.parseParams id (Params.uncommented (Params.commentLines params)) = .ok params := by
  obtain ⟨node, hnode⟩ := g.exists_require hid
  have hread := Json.read_render (v := .object params) plain readable
  unfold Graph.parseParams
  rw [hnode, Params.uncommented_commentLines]
  dsimp only
  rw [Json.isAllBlank_render_object, if_neg (by decide), hread]
  unfold checkParams
  dsimp only
  rw [if_pos plain]

/-! ## The parts of a split -/

namespace Fragment

/-- The params of a split as its comment shows them: the default parts, each with
the value that the params give it unless that is null, and then what else the
params hold but nulls. -/
structure ShowsSplit (params shown : Fields) : Prop where
  keys : shown.keys = defaultSplit.keys ++
    (Fields.keys (params.filter fun field => !isNull field.2)).filter fun key =>
      !defaultSplit.keys.contains key
  values : ∀ key, shown.get? key =
    ((params.get? key).filter fun value => !isNull value).or (defaultSplit.get? key)

variable {params : Fields}

theorem nodup_keys_filter (h : params.keys.Nodup) :
    (Fields.keys (params.filter fun field => !isNull field.2)).Nodup :=
  h.sublist (List.filter_sublist.map _)

theorem showsSplit_splitParams (h : params.keys.Nodup) :
    ShowsSplit params (splitParams params) := by
  have hnodup := nodup_keys_filter h
  constructor
  · exact Fields.keys_overriddenBy defaultSplit hnodup
  · intro key
    have hlookup := lookup_filter_value (fun value => !isNull value) h key
    unfold splitParams
    rw [Fields.get?_overriddenBy defaultSplit hnodup]
    exact congrArg (·.or (defaultSplit.get? key)) hlookup

theorem nodup_keys_splitParams (h : params.keys.Nodup) : (splitParams params).keys.Nodup := by
  have hdefault : defaultSplit.keys.Nodup := by decide
  rw [(showsSplit_splitParams h).keys, List.nodup_append]
  refine ⟨hdefault, (nodup_keys_filter h).filter _, ?_⟩
  intro key hkey other hother
  have hnew := (List.mem_filter.mp hother).2
  rintro rfl
  simp [hkey] at hnew

/-- A split shows values that can be printed and read if its params are such. -/
theorem plain_splitParams (plain : Json.allFieldsPlain params = true) :
    Json.allFieldsPlain (splitParams params) = true := by
  have hdefault : Json.allFieldsPlain defaultSplit = true := by decide +kernel
  rw [Json.allFieldsPlain_iff] at plain hdefault ⊢
  refine Fields.forall_mem_overriddenBy (p := fun field => field.2.isPlain = true) hdefault ?_
  intro field hfield
  exact plain field (List.mem_of_mem_filter hfield)

theorem readable_splitParams (readable : (Json.object params).isReadable = true) :
    (Json.object (splitParams params)).isReadable = true := by
  have hdefault : Json.allFieldsReadable defaultSplit = true := by decide +kernel
  rw [Json.isReadable_object_iff] at readable ⊢
  rw [Json.allFieldsReadable_iff] at hdefault
  refine ⟨nodup_keys_splitParams readable.1, ?_⟩
  refine Fields.forall_mem_overriddenBy (p := fun field => field.2.isReadable = true) hdefault ?_
  intro field hfield
  exact readable.2 field (List.mem_of_mem_filter hfield)

end Fragment

/-! ## The comment of a split in a script -/

namespace Script

open Writer

/-- The lines in front of the comment on the params of a split. -/
def splitLines : List Text := [
  "# Split",
  "train_ds, val_ds, test_ds = None, None, None  # TODO: split your dataset according to params"]

theorem adds_split (node : Node) :
    Adds (Fragment.split node)
      (splitLines ++ Params.commentLines (Fragment.splitParams node.params)) := by
  have hnote := (adds_all (Params.commentLines (Fragment.splitParams node.params))).andThen
    (adds_showing (.object (Fragment.splitParams node.params)))
  rw [List.append_nil] at hnote
  exact ((adds_line "# Split").andThen (adds_line _)).andThen hnote

/-- Of the split nodes the first one writes. -/
theorem stageLines_split {nodes : List Node} {node : Node}
    (h : (nodes.filter (·.is .split)).head? = some node) :
    stageLines nodes .split =
      splitLines ++ Params.commentLines (Fragment.splitParams node.params) ++ ([""] : List Text) := by
  obtain ⟨others, hothers⟩ := List.head?_eq_some_iff.mp h
  have hfragment : fragment nodes {} .split = (Fragment.split node {}).blank := by
    unfold fragment
    dsimp only
    rw [hothers]
    rfl
  unfold stageLines
  rw [hfragment]
  exact ((adds_split node).andThen (adds_line "")).lines_eq

/-- The comment on the params of a node is JSON text behind marks, and is read as
the same params: integers stay integers, and every object keeps the order of its
keys. The comment of a split shows its params over the default parts. -/
theorem a_comment_on_params_loses_nothing {g : Graph} {id : Text} (hid : id ∈ g.ids) :
    (∀ params : Fields, Json.allFieldsPlain params = true →
      (Json.object params).isReadable = true →
      (∀ line ∈ Params.commentLines params, (Text.toList "# ") <+: line.toList ∧ OnOneLine line) ∧
      (∀ first ∈ (Params.commentLines params).head?, (Text.toList "# params: ") <+: first.toList) ∧
      g.parseParams id (Params.uncommented (Params.commentLines params)) = .ok params) ∧
    ∀ node ∈ (g.orderedOf .split).head?, Json.allFieldsPlain node.params = true →
      (Json.object node.params).isReadable = true →
      ∃ shown before after, Fragment.ShowsSplit node.params shown ∧
        (Yields g fun source => physicalLines source = before ++
          splitLines ++ Params.commentLines shown ++ ("" : Text) :: after) ∧
        g.parseParams id (Params.uncommented (Params.commentLines shown)) = .ok shown := by
  constructor
  · intro params plain readable
    obtain ⟨hmarked, hfirst⟩ := Params.marked_commentLines params
    refine ⟨?_, hfirst, g.parseParams_uncommented hid plain readable⟩
    intro line hline
    exact ⟨hmarked line hline, (Params.comment_of_mem_commentLines params line hline).1⟩
  · intro node hnode plain readable
    have hkeys : node.params.keys.Nodup := (Json.isReadable_object_iff.mp readable).1
    have hlines := stageLines_split hnode
    refine ⟨Fragment.splitParams node.params,
      header (nameOrDefault g.name) ++ stageLines g.ordered .data ++
        stageLines g.ordered .transform,
      ([.model, .loss, .optimizer, .trainer, .metric, .composite] : List Stage).flatMap
        (stageLines g.ordered) ++ footer (nameOrDefault g.name) ++ ([""] : List Text),
      Fragment.showsSplit_splitParams hkeys, ?_, ?_⟩
    · apply yields_of_draft
      rw [physicalLines_draft]
      simp only [stages, List.flatMap_cons, hlines]
      simp only [List.append_assoc, List.cons_append, List.nil_append]
    · exact g.parseParams_uncommented hid (Fragment.plain_splitParams plain)
        (Fragment.readable_splitParams readable)

/-- Params with texts that try to leave their line, empty values, a whole real
number and a null. -/
def oddParams : Fields := [
  ("note", .string "a\"\\\n\r# \x01é"), ("train", .real (Decimal.toBinary false 7 (-1))),
  ("sizes", .list [.int 28, .real (Decimal.toBinary false 28 0), .list [], .int (-3)]),
  ("val", .null), ("more\n", .object [("none", .object []), ("rate", .real (Decimal.toBinary true 1 (-9)))])]

/-- A split alone, with odd params. -/
def splitAlone : Graph where
  name := ""
  nodes := [{ id := "s", kind := "Split", params := oddParams }]
  edges := []
  ids_nodup := by decide

theorem the_comment_of_odd_params :
    ("s" : Text) ∈ splitAlone.ids ∧ Json.allFieldsPlain oddParams = true ∧
      (Json.object oddParams).isReadable = true ∧
      splitAlone.parseParams "s" (Params.uncommented (Params.commentLines oddParams)) =
        .ok oddParams ∧
      (splitAlone.orderedOf .split).head? = some splitAlone.nodes[0] ∧
      ∃ shown, Fragment.ShowsSplit oddParams shown ∧
        shown.keys = (["train", "val", "test", "shuffle", "note", "sizes", "more\n"] : List Text) ∧
        splitAlone.parseParams "s" (Params.uncommented (Params.commentLines shown)) = .ok shown := by
  have hid : ("s" : Text) ∈ splitAlone.ids := by decide
  have plain : Json.allFieldsPlain oddParams = true := by decide +kernel
  have readable : (Json.object oddParams).isReadable = true := by decide +kernel
  have horder : splitAlone.order = (["s"] : List Text) := by decide +kernel
  have hnode : (splitAlone.orderedOf .split).head? = some splitAlone.nodes[0] := by
    unfold Graph.orderedOf Graph.ordered
    rw [horder]
    rfl
  obtain ⟨hread, hsplit⟩ := a_comment_on_params_loses_nothing hid
  obtain ⟨shown, _, _, hshown, _, hcomment⟩ := hsplit _ hnode plain readable
  refine ⟨hid, plain, readable, (hread oddParams plain readable).2.2, hnode, shown, hshown, ?_,
    hcomment⟩
  rw [hshown.keys]
  decide

end Script

end PipelineBoard
