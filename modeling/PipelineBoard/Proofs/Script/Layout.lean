-- Where the parts of a script stand: its header, what each stage writes on its
-- own, and its footer, one physical line for each line that was written. What a
-- stage writes does not depend on the level at which it starts, and it comes back
-- to that level.
import PipelineBoard.Proofs.Script.Emit

namespace PipelineBoard

/-! ## Fragments at any level -/

namespace Fragment

open Writer

/-- What the nodes of a stage write at the margin, with nothing before it. -/
def groupLines (stage : Stage) (nodes : List Node) : List Text := (group stage nodes {}).lines

theorem adds_group (stage : Stage) (nodes : List Node) :
    Adds (group stage nodes) (groupLines stage nodes) := by
  obtain ⟨texts, hadds, _⟩ := prints_group nodes stage
  have htexts : groupLines stage nodes = texts := hadds.lines_eq
  rw [htexts]
  exact hadds

/-- Several groups of nodes written one after the other. -/
def writeGroups (groups : List (Stage × List Node)) (w : Writer) : Writer :=
  groups.foldl (fun w part => group part.1 part.2 w) w

/-- What a group shows settles whether it can be written. -/
theorem failed_group (stage : Stage) (nodes : List Node) :
    (group stage nodes {}).failed = !Json.allShort (shown stage nodes) := by
  rw [shows_group stage nodes {}, Bool.false_or]

theorem adds_groups (groups : List (Stage × List Node)) :
    Adds (writeGroups groups) (groups.flatMap fun part => groupLines part.1 part.2) := by
  induction groups with
  | nil => exact adds_nothing
  | cons part rest ih => exact (adds_group part.1 part.2).andThen ih

theorem shows_groups (groups : List (Stage × List Node)) :
    Shows (writeGroups groups) (groups.flatMap fun part => shown part.1 part.2) := by
  induction groups with
  | nil => exact shows_nothing
  | cons part rest ih => exact (shows_group part.1 part.2).andThen ih

theorem any_failed_groups (groups : List (Stage × List Node)) :
    (groups.any fun part => (group part.1 part.2 {}).failed) =
      !Json.allShort (groups.flatMap fun part => shown part.1 part.2) := by
  induction groups with
  | nil => rfl
  | cons part rest ih =>
    rw [List.any_cons, ih, failed_group, List.flatMap_cons, Json.allShort_append, Bool.not_and]

/-- A line behind four spaces for each level, unless it is empty. -/
def shifted (level : Nat) (line : Text) : Text :=
  if line = "" then "" else Text.ofList (List.replicate (4 * level) ' ') ++ line

theorem indented_natCast (level : Nat) : indented level = shifted level := by
  funext line
  simp [indented, shifted, margin]

/-- A piece at a level, if it adds the texts and shows the values. -/
theorem adds_at_level {piece : Writer → Writer} {texts : List Text} {values : List Json}
    (hadds : Adds piece texts) (hshows : Shows piece values) (lines : List Text) (level : Nat)
    (failed : Bool) :
    piece ⟨lines, level, failed⟩ =
      ⟨lines ++ texts.map (shifted level), level, failed || !Json.allShort values⟩ := by
  obtain ⟨fails, hpiece⟩ := hadds
  have hshown := hshows ⟨lines, level, failed⟩
  have hat := hpiece ⟨lines, level, failed⟩ (Int.natCast_nonneg level)
  rw [hat] at hshown ⊢
  rw [indented_natCast]
  exact congrArg _ hshown

/-- At every level the nodes of a stage write the lines that they write at the
margin, each one that is not empty behind four spaces for each level, they leave
the level as it was, and the writing fails or not as it does at the margin. So
however many groups are written one after the other, none shifts the lines of
the next. -/
theorem a_fragment_is_the_same_at_every_level (lines : List Text) (level : Nat)
    (failed : Bool) :
    (∀ (stage : Stage) (nodes : List Node), group stage nodes ⟨lines, level, failed⟩ =
      ⟨lines ++ (groupLines stage nodes).map (shifted level), level,
        failed || (group stage nodes {}).failed⟩) ∧
    ∀ groups : List (Stage × List Node), writeGroups groups ⟨lines, level, failed⟩ =
      ⟨lines ++ (groups.flatMap fun part => groupLines part.1 part.2).map (shifted level), level,
        failed || groups.any fun part => (group part.1 part.2 {}).failed⟩ := by
  refine ⟨fun stage nodes => ?_, fun groups => ?_⟩
  · rw [adds_at_level (adds_group stage nodes) (shows_group stage nodes), failed_group]
  · rw [adds_at_level (adds_groups groups) (shows_groups groups), any_failed_groups]

end Fragment

namespace Script

open Text Writer

/-! ## The lines of a stage -/

/-- The lines that the nodes of a stage write from nothing. -/
def stageLines (nodes : List Node) (stage : Stage) : List Text := (fragment nodes {} stage).lines

/-- A stage adds the same lines wherever it starts. -/
theorem adds_fragment (nodes : List Node) (stage : Stage) :
    Adds (fun w => fragment nodes w stage) (stageLines nodes stage) := by
  obtain ⟨texts, hadds, _⟩ := prints_fragment nodes stage
  have htexts : stageLines nodes stage = texts := hadds.lines_eq
  rw [htexts]
  exact hadds

theorem adds_fragments (nodes : List Node) (some : List Stage) :
    Adds (fun w => some.foldl (fragment nodes) w) (some.flatMap (stageLines nodes)) := by
  induction some with
  | nil => exact adds_nothing
  | cons stage rest ih => exact (adds_fragment nodes stage).andThen ih

/-! ## The lines of a script -/

theorem lines_write (name : Text) (nodes : List Node) :
    (write name nodes).lines =
      header name ++ stages.flatMap (stageLines nodes) ++ footer name := by
  have hbefore := (adds_all (header name)).andThen (adds_fragments nodes stages)
  exact (hbefore.andThen (adds_all (footer name))).lines_eq

/-- No line that was written is cut in two. -/
theorem physicalLines_write (name : Text) (nodes : List Node) :
    physicalLines ((write name nodes).joined ++ "\n") = (write name nodes).lines ++ ([""] : List Text) := by
  have hlines : ∀ t ∈ (write name nodes).lines, OnOneLine t := (prints_write name nodes).onOneLine
  have hsome : (write name nodes).lines ≠ [] := by
    rw [lines_write]
    simp [header]
  exact physicalLines_lines hsome hlines

theorem physicalLines_draft (g : Graph) :
    physicalLines (draft g) =
      header (nameOrDefault g.name) ++ stages.flatMap (stageLines g.ordered) ++
        footer (nameOrDefault g.name) ++ ([""] : List Text) := by
  unfold draft
  rw [physicalLines_write, lines_write]

theorem physicalLines_emitIn {g : Graph} {order : List Text} {source : Text}
    (h : emitIn g order = .ok source) :
    physicalLines source =
      header (nameOrDefault g.name) ++
        stages.flatMap (stageLines (order.filterMap g.find?)) ++
        footer (nameOrDefault g.name) ++ ([""] : List Text) := by
  unfold emitIn Writer.text at h
  split at h
  · cases h
  · cases h
    rw [physicalLines_write, lines_write]

end Script

end PipelineBoard
