-- Updates of a node. A text of params writes an object of plain values, or is turned
-- down and leaves the node as it was; nothing but params fails an update of a node
-- that is there.
import PipelineBoard.Proofs.Board.InPlace
import PipelineBoard.Proofs.Json.LongNumbers
import PipelineBoard.Proofs.Snapshot.Grammar

namespace PipelineBoard

/-! ## Texts of params -/

theorem Text.isBlank_of_isDigit {c : Point} (h : isDigit c = true) : isBlank c = false := by
  have hbounds : 48 ≤ c.toNat ∧ c.toNat ≤ 57 := by
    simpa [isDigit, Char.le_def, UInt32.le_iff_toNat_le] using h
  unfold isBlank
  grind

theorem Text.isAllBlank_of_isDigit {digits : List Point} (hsome : digits ≠ [])
    (h : ∀ c ∈ digits, isDigit c = true) : isAllBlank (Text.ofList digits) = false := by
  obtain ⟨c, hc⟩ := List.exists_mem_of_ne_nil digits hsome
  rw [isAllBlank, Text.toList_ofList, List.all_eq_false]
  refine ⟨c, hc, ?_⟩
  rw [isBlank_of_isDigit (h c hc)]
  decide

namespace Params

/-- The text writes the params: none if it is blank, and else it is read as an object
of them. -/
def Writes (text : Text) (params : Fields) : Prop :=
  if Text.isAllBlank text then params = [] else Json.read text = .ok (.object params)

/-- The text is not blank and writes no params, as the error on the node says. -/
inductive Malformed (id text : Text) : EditError → Prop
  | notJson (filled : Text.isAllBlank text = false) (fault : Json.Fault) (place : Json.Place)
      (unread : Json.read text = .error (.malformed fault place)) :
      Malformed id text (.paramsNotJson id fault place)
  | notObject (filled : Text.isAllBlank text = false) (value : Json)
      (read : Json.read text = .ok value) (other : ¬Snapshot.IsPlainObject value) :
      Malformed id text (.paramsNotObject id)

/-- Reading stops in the text at a number of so many digits. -/
structure TooLong (text : Text) (count : Nat) : Prop where
  read : Json.read text = .error (.tooManyDigits count)
  run : Json.HasLongRun text.toList count

end Params

/-- The node with what is given in place of its own. -/
def Node.updated (node : Node) (label summary : Option Text) (params : Fields) : Node :=
  { node with label := label.getD node.label, summary := summary.getD node.summary, params }

namespace Graph

open Params

variable {g : Graph} {node : Node}

/-! ## Params that are checked -/

theorem checkParams_of_plain (id : Text) {params : Fields}
    (plain : Json.allFieldsPlain params = true) : checkParams id (.object params) = .ok params :=
  if_pos plain

theorem checkParams_of_other {id : Text} {value : Json} (h : ¬Snapshot.IsPlainObject value) :
    checkParams id value = .error (.paramsNotObject id) := by
  unfold checkParams
  split
  · rename_i fields
    exact if_neg fun plain => h ⟨fields, rfl, plain⟩
  · rfl

theorem updateNode_none (hnode : node ∈ g.nodes) (label summary : Option Text) :
    g.updateNode node.id label summary none =
      .ok (node.updated label summary node.params,
        g.replace (node.updated label summary node.params)) := by
  unfold updateNode
  rw [require_of_mem hnode]
  rfl

theorem updateNode_of_plain (hnode : node ∈ g.nodes) (label summary : Option Text)
    {params : Fields} (plain : Json.allFieldsPlain params = true) :
    g.updateNode node.id label summary (some (.object params)) =
      .ok (node.updated label summary params, g.replace (node.updated label summary params)) := by
  unfold updateNode
  rw [require_of_mem hnode]
  simp only [updatedParams, checkParams_of_plain node.id plain]
  rfl

theorem updateNode_of_not_plain (hnode : node ∈ g.nodes) (label summary : Option Text)
    {params : Fields} (plain : ¬Json.allFieldsPlain params = true) :
    g.updateNode node.id label summary (some (.object params)) =
      .error (.paramsNotObject node.id) := by
  have hother : ¬Snapshot.IsPlainObject (.object params) := by
    rintro ⟨_, ⟨⟩, hplain⟩
    exact plain hplain
  unfold updateNode
  rw [require_of_mem hnode]
  simp only [updatedParams, checkParams_of_other hother]
  rfl

/-! ## Params that are parsed -/

theorem parseParams_of_writes (hnode : node ∈ g.nodes) {text : Text} {params : Fields}
    (writes : Writes text params) (plain : Json.allFieldsPlain params = true) :
    g.parseParams node.id text = .ok params := by
  unfold parseParams
  rw [require_of_mem hnode]
  unfold Writes at writes
  by_cases hblank : Text.isAllBlank text = true
  · rw [if_pos hblank] at writes ⊢
    rw [writes]
  · rw [if_neg hblank] at writes ⊢
    rw [writes]
    exact checkParams_of_plain node.id plain

/-- A text of params comes to one of three things. -/
theorem parseParams_cases {id : Text} (hid : id ∈ g.ids) (text : Text) :
    (∃ params, g.parseParams id text = .ok params ∧ Writes text params ∧
        Json.allFieldsPlain params = true) ∨
      (∃ e, g.parseParams id text = .error e ∧ Malformed id text e) ∨
      ∃ count, g.parseParams id text = .error (.paramsTooManyDigits count) ∧ TooLong text count := by
  obtain ⟨node, hnode⟩ := g.exists_require hid
  unfold parseParams Writes
  rw [hnode]
  simp only
  by_cases hblank : Text.isAllBlank text = true
  · rw [if_pos hblank]
    exact .inl ⟨[], rfl, by rw [if_pos hblank], rfl⟩
  have hfilled : Text.isAllBlank text = false := Bool.eq_false_iff.mpr hblank
  rw [if_neg hblank]
  cases hread : Json.read text with
  | ok value =>
    simp only
    by_cases hplain : Snapshot.IsPlainObject value
    · obtain ⟨params, rfl, plain⟩ := hplain
      exact .inl ⟨params, checkParams_of_plain id plain, by rw [if_neg hblank], plain⟩
    · exact .inr (.inl ⟨_, checkParams_of_other hplain, .notObject hfilled value hread hplain⟩)
  | error e =>
    cases e with
    | malformed fault place => exact .inr (.inl ⟨_, rfl, .notJson hfilled fault place hread⟩)
    | tooManyDigits count => exact .inr (.inr ⟨count, rfl, hread, Json.hasLongRun_of_read hread⟩)

/-- A number of too many digits and nothing else is turned down as such. -/
theorem parseParams_of_long_number {id : Text} (hid : id ∈ g.ids) {digits : List Point}
    (h : Decimal.IsWhole digits) (long : Numeral.mostDigits < digits.length) :
    g.parseParams id (Text.ofList digits) = .error (.paramsTooManyDigits digits.length) := by
  have hread := Json.read_of_long_number h long
  rcases parseParams_cases hid (Text.ofList digits) with
    ⟨params, _, hwrites, _⟩ | ⟨e, _, hmalformed⟩ | ⟨count, hparse, hlong⟩
  · rw [Writes, Text.isAllBlank_of_isDigit h.ne_nil h.areDigits, if_neg (by decide), hread] at hwrites
    cases hwrites
  · cases hmalformed with
    | notJson _ fault place unread => cases hread.symm.trans unread
    | notObject _ value read => cases hread.symm.trans read
  · cases hread.symm.trans hlong.read
    exact hparse

end Graph

/-! ## Texts that are set -/

namespace Params

open Routine

variable {desk : Desk} {id text : Text}

/-- The params that a text writes are those of the node afterwards. -/
theorem on_setParamsText_of_ok {node : Node} {params : Fields}
    (hnode : node ∈ desk.board.graph.nodes)
    (hparse : desk.board.graph.parseParams node.id text = .ok params)
    (plain : Json.allFieldsPlain params = true) :
    (setParamsText node.id text).on desk =
      (.ok { node with params }, desk.withGraph (desk.board.graph.replace { node with params })) := by
  rw [on_setParamsText]
  unfold Graph.setParamsText
  simp only [hparse, Graph.updateNode_of_plain hnode none none plain]
  rfl

theorem on_setParamsText_of_error {e : EditError}
    (hparse : desk.board.graph.parseParams id text = .error e) :
    (setParamsText id text).on desk = (.error (.edit e), desk) := by
  rw [on_setParamsText]
  unfold Graph.setParamsText
  rw [hparse]
  rfl

/-- A text of params, whatever it is, either puts the object that it writes in the
place of the params of a node, or is turned down with an error on the node, or holds
a number of too many digits and is turned down with an error on that. When it is
turned down, the desk is as it was. -/
theorem a_text_of_params_is_written_or_turned_down (desk : Desk) (id text : Text)
    (hid : id ∈ desk.board.graph.ids) :
    ∃ node ∈ desk.board.graph.nodes, node.id = id ∧
      ((∃ params, Writes text params ∧ Json.allFieldsPlain params = true ∧
          (setParamsText id text).on desk =
            (.ok { node with params },
              desk.withGraph (desk.board.graph.replace { node with params }))) ∨
        (∃ e, Malformed id text e ∧ (setParamsText id text).on desk = (.error (.edit e), desk)) ∨
        ∃ count, TooLong text count ∧
          (setParamsText id text).on desk = (.error (.edit (.paramsTooManyDigits count)), desk)) := by
  obtain ⟨node, hnode, rfl⟩ := List.mem_map.mp hid
  refine ⟨node, hnode, rfl, ?_⟩
  rcases Graph.parseParams_cases hid text with
    ⟨params, hparse, hwrites, plain⟩ | ⟨e, hparse, hmalformed⟩ | ⟨count, hparse, hlong⟩
  · exact .inl ⟨params, hwrites, plain, on_setParamsText_of_ok hnode hparse plain⟩
  · exact .inr (.inl ⟨e, hmalformed, on_setParamsText_of_error hparse⟩)
  · exact .inr (.inr ⟨count, hlong, on_setParamsText_of_error hparse⟩)

/-- A desk with a node that has params. -/
def tuned : Desk where
  board := ⟨⟨"p", [{ id := "m", kind := "Model", params := [("lr", .int 1)] }], [], by simp⟩, none⟩
  ids := .serial

theorem a_blank_text_and_a_list :
    ("m" : Text) ∈ tuned.board.graph.ids ∧
      ((setParamsText "m" " \u2003\n").on tuned).1 = .ok { id := "m", kind := "Model", params := [] } ∧
      ∃ e, Malformed "m" "[]" e ∧ (setParamsText "m" "[]").on tuned = (.error (.edit e), tuned) := by
  have hid : ("m" : Text) ∈ tuned.board.graph.ids := by decide
  refine ⟨hid, ?_, ?_⟩
  · have hblank : Text.isAllBlank " \u2003\n" = true := by decide
    have hread : Json.read " \u2003\n" = .error (.malformed .noValue ⟨1, 2, 1⟩) := by rfl
    obtain ⟨node, hnode, _, h⟩ := a_text_of_params_is_written_or_turned_down tuned "m" " \u2003\n" hid
    cases List.mem_singleton.mp hnode
    rcases h with ⟨params, hwrites, _, hon⟩ | ⟨e, hmalformed, _⟩ | ⟨count, hlong, _⟩
    · unfold Writes at hwrites
      rw [if_pos hblank] at hwrites
      rw [hon, hwrites]
    · cases hmalformed with
      | notJson filled => simp [hblank] at filled
      | notObject filled => simp [hblank] at filled
    · cases hread.symm.trans hlong.read
  · have hread : Json.read "[]" = .ok (.list []) := by rfl
    obtain ⟨node, hnode, _, h⟩ := a_text_of_params_is_written_or_turned_down tuned "m" "[]" hid
    rcases h with ⟨params, hwrites, _, _⟩ | hmalformed | ⟨count, hlong, _⟩
    · cases hread.symm.trans hwrites
    · exact hmalformed
    · cases hread.symm.trans hlong.read

/-- So many ones. -/
def ones (count : Nat) : List Point := List.replicate count (.scalar '1')

theorem isWhole_ones (count : Nat) : Decimal.IsWhole (ones (count + 1)) := by
  refine .inr ⟨fun c hc => ?_, by simp [ones], by simp [ones, List.replicate_succ]⟩
  rw [List.eq_of_mem_replicate hc]
  decide

/-- A number of 4301 digits is neither written nor turned down as a malformed text. -/
theorem a_number_of_4301_digits_is_turned_down_otherwise :
    (setParamsText "m" (Text.ofList (ones 4301))).on tuned =
        (.error (.edit (.paramsTooManyDigits 4301)), tuned) ∧
      ¬((∃ node after, (setParamsText "m" (Text.ofList (ones 4301))).on tuned =
          (.ok node, after)) ∨
        ∃ e after, Malformed "m" (Text.ofList (ones 4301)) e ∧
          (setParamsText "m" (Text.ofList (ones 4301))).on tuned = (.error (.edit e), after)) := by
  have hlength : (ones 4301).length = 4301 := List.length_replicate
  have hlong : Numeral.mostDigits < (ones 4301).length := by
    rw [hlength]
    decide
  have hid : ("m" : Text) ∈ tuned.board.graph.ids := by decide
  have hparse := Graph.parseParams_of_long_number hid (isWhole_ones 4300) hlong
  rw [hlength] at hparse
  have hon : (setParamsText "m" (Text.ofList (ones 4301))).on tuned =
      (.error (.edit (.paramsTooManyDigits 4301)), tuned) := on_setParamsText_of_error hparse
  refine ⟨hon, ?_⟩
  rintro (⟨node, after, hok⟩ | ⟨e, after, hmalformed, herror⟩)
  · cases hon.symm.trans hok
  · cases hon.symm.trans herror
    cases hmalformed

end Params

/-! ## Updates of several fields -/

open Params (Writes)

/-- The params of a node after an update: those that are given, else those that a
text writes, else its own. A text is judged even where params are given besides. -/
inductive NewParams (old : Fields) : Option Fields → Option Text → Fields → Prop
  | kept : NewParams old none none old
  | given {params : Fields} (plain : Json.allFieldsPlain params = true) :
      NewParams old (some params) none params
  | written {text : Text} {params : Fields} (writes : Writes text params)
      (plain : Json.allFieldsPlain params = true) : NewParams old none (some text) params
  | both {text : Text} {params beside : Fields} (plain : Json.allFieldsPlain params = true)
      (writes : Writes text beside) (plain' : Json.allFieldsPlain beside = true) :
      NewParams old (some params) (some text) params

/-- The error tells of params. -/
inductive EditError.OfParams : EditError → Prop
  | notObject (id : Text) : OfParams (.paramsNotObject id)
  | notJson (id : Text) (fault : Json.Fault) (place : Json.Place) :
      OfParams (.paramsNotJson id fault place)
  | tooManyDigits (count : Nat) : OfParams (.paramsTooManyDigits count)

theorem Params.Malformed.ofParams {id text : Text} {e : EditError} (h : Malformed id text e) :
    e.OfParams := by
  cases h with
  | notJson _ fault place => exact .notJson id fault place
  | notObject => exact .notObject id

namespace Board

variable {b : Board} {node : Node} (hnode : node ∈ b.graph.nodes) {params : Option Fields}
  {text : Option Text} (label summary : Option Text)
include hnode

theorem updateNode_of_newParams {new : Fields} (h : NewParams node.params params text new) :
    b.updateNode node.id label summary (params.map Json.object) text =
      .ok (node.updated label summary new, b.graph.replace (node.updated label summary new)) := by
  unfold updateNode
  cases h with
  | kept => exact Graph.updateNode_none hnode label summary
  | given plain => exact Graph.updateNode_of_plain hnode label summary plain
  | written writes plain =>
    simp only [Graph.parseParams_of_writes hnode writes plain]
    exact Graph.updateNode_of_plain hnode label summary plain
  | both plain writes plain' =>
    simp only [Graph.parseParams_of_writes hnode writes plain']
    exact Graph.updateNode_of_plain hnode label summary plain

/-- Nothing but params fails an update of a node that is there. -/
theorem updateNode_of_no_newParams (h : ∀ new, ¬NewParams node.params params text new) :
    ∃ e : EditError, e.OfParams ∧
      b.updateNode node.id label summary (params.map Json.object) text = .error e := by
  unfold updateNode
  rcases text with _ | text
  · rcases params with _ | params
    · exact absurd .kept (h node.params)
    · exact ⟨_, .notObject node.id, Graph.updateNode_of_not_plain hnode label summary fun plain =>
        h params (.given plain)⟩
  · rcases Graph.parseParams_cases (List.mem_map_of_mem hnode) text with
      ⟨written, hparse, hwrites, plain⟩ | ⟨e, hparse, hmalformed⟩ | ⟨count, hparse, _⟩
    · simp only [hparse]
      rcases params with _ | params
      · exact absurd (.written hwrites plain) (h written)
      · exact ⟨_, .notObject node.id, Graph.updateNode_of_not_plain hnode label summary fun plain' =>
          h params (.both plain' hwrites plain)⟩
    · exact ⟨e, hmalformed.ofParams, by simp only [hparse]⟩
    · exact ⟨_, .tooManyDigits count, by simp only [hparse]⟩

end Board

end PipelineBoard
