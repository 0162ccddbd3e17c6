-- The values that a script shows: the params in its comments and the numbers in
-- its code. A script is written just if each of them can be written.
import PipelineBoard.Proofs.Graph.Valid
import PipelineBoard.Proofs.Script.Pieces

namespace PipelineBoard

/-! ## What the fragments show -/

namespace Fragment

open Writer

/-- The values that one node shows for its stage. -/
def shownBy (stage : Stage) (node : Node) : List Json :=
  match stage with
  | .data | .transform | .model => [.object node.params]
  | .split => [.object (splitParams node.params)]
  | .optimizer => [Params.numberOr node.params "lr" defaultRate]
  | .trainer => [.int (Params.count node.params "batch_size" 64),
      .int (Params.count node.params "epochs" 3)]
  | .loss | .metric | .composite => []

/-- The values that the nodes of a stage show: all data and transform nodes show
theirs, and of the other stages the first node does. -/
def shown (stage : Stage) (nodes : List Node) : List Json :=
  match stage with
  | .data | .transform => nodes.flatMap (shownBy stage)
  | stage => nodes.head?.elim [] (shownBy stage)

theorem shows_note (params : Fields) : Shows (note params) [.object params] :=
  (shows_all (Params.commentLines params)).andThen (shows_showing _)

/-- A piece that only writes given lines shows nothing. -/
theorem shows_of_failed_eq {piece : Writer → Writer} (h : ∀ w, (piece w).failed = w.failed) :
    Shows piece [] := by
  intro w
  rw [h w, Json.allShort, Bool.not_true, Bool.or_false]

theorem shows_single (stage : Stage) (node : Node) (index : Int) :
    Shows (single stage node index) (shownBy stage node) := by
  cases stage with
  | data => exact ((shows_line _).andThen (shows_line _)).andThen (shows_note _)
  | transform => exact (shows_line _).andThen (shows_note _)
  | split => exact ((shows_line _).andThen (shows_line _)).andThen (shows_note _)
  | model =>
    have hclass : Shows (fun w => (((w.comment
        ("Model: " ++ orElse (Text.oneLine node.label) "Model")).block
        "class GeneratedModel(nn.Module):" modelBody).blank.blank).line
        "model = GeneratedModel().to(device)") [] := shows_of_failed_eq fun _ => rfl
    exact hclass.andThen (shows_note _)
  | loss => exact shows_of_failed_eq fun _ => rfl
  | optimizer => exact ((shows_line _).andThen (shows_line _)).andThen (shows_showing _)
  | metric => exact shows_nothing
  | trainer =>
    intro w
    simp only [single, trainer, showing, shownBy, Json.allShort, Bool.and_true, Bool.not_and,
      ← Bool.or_assoc]
    rfl
  | composite => exact shows_nothing

theorem shows_each (stage : Stage) (nodes : List Node) (index : Int) :
    Shows (each stage index nodes) (nodes.flatMap (shownBy stage)) := by
  induction nodes generalizing index with
  | nil => exact shows_nothing
  | cons node rest ih => exact (shows_single stage node index).andThen (ih (index + 1))

theorem shows_first (stage : Stage) (nodes : List Node) :
    Shows (first stage nodes) (nodes.head?.elim [] (shownBy stage)) := by
  cases nodes with
  | nil => exact shows_nothing
  | cons node rest =>
    have hnode := (shows_single stage node 0).andThen (shows_line "")
    rw [List.append_nil] at hnode
    exact hnode

theorem shows_group (stage : Stage) (nodes : List Node) :
    Shows (group stage nodes) (shown stage nodes) := by
  cases stage with
  | data =>
    have hdata := (shows_each .data nodes 0).andThen (shows_line "")
    rw [List.append_nil] at hdata
    exact hdata
  | transform =>
    have htransform := ((shows_line "# Transforms").andThen (shows_each .transform nodes 0)).andThen
      (shows_line "")
    rw [List.nil_append, List.append_nil] at htransform
    exact htransform
  | split => exact shows_first .split nodes
  | model => exact shows_first .model nodes
  | loss => exact shows_first .loss nodes
  | optimizer => exact shows_first .optimizer nodes
  | trainer => exact shows_first .trainer nodes
  | metric =>
    cases nodes with
    | nil => exact shows_nothing
    | cons node rest => exact shows_of_failed_eq fun _ => rfl
  | composite => cases nodes <;> exact shows_nothing

end Fragment

/-! ## What a script shows -/

/-- The values that the script of a graph shows. -/
def Graph.scriptValues (g : Graph) : List Json :=
  Script.stages.flatMap fun stage => Fragment.shown stage (g.orderedOf stage)

namespace Script

open Writer

theorem shows_fragment (nodes : List Node) (stage : Stage) :
    Shows (fun w => fragment nodes w stage)
      (Fragment.shown stage (nodes.filter (·.is stage))) := by
  rcases hgroup : nodes.filter (·.is stage) with _ | ⟨node, rest⟩
  · have hnone : (fun w => fragment nodes w stage) = fun w => w := by
      funext w
      simp [fragment, hgroup]
    rw [hnone, hgroup]
    cases stage <;> exact shows_nothing
  · have hsome : (fun w => fragment nodes w stage) = Fragment.group stage (node :: rest) := by
      funext w
      simp [fragment, hgroup]
    rw [hsome, hgroup]
    exact Fragment.shows_group stage (node :: rest)

theorem shows_fragments (nodes : List Node) (some : List Stage) :
    Shows (fun w => some.foldl (fragment nodes) w)
      (some.flatMap fun stage => Fragment.shown stage (nodes.filter (·.is stage))) := by
  induction some with
  | nil => exact shows_nothing
  | cons stage rest ih => exact (shows_fragment nodes stage).andThen ih

theorem failed_write (g : Graph) :
    (write (nameOrDefault g.name) g.ordered).failed = !Json.allShort g.scriptValues := by
  have hwrite := ((shows_all (header (nameOrDefault g.name))).andThen
    (shows_fragments g.ordered stages)).andThen (shows_all (footer (nameOrDefault g.name)))
  rw [List.nil_append, List.append_nil] at hwrite
  exact (hwrite {}).trans (Bool.false_or _)

/-- The text of a script as far as its lines go, whatever numbers it shows. -/
def draft (g : Graph) : Text := (write (nameOrDefault g.name) g.ordered).joined ++ "\n"

theorem emit_eq_draft (g : Graph) :
    emit g = if Json.allShort g.scriptValues then .ok (draft g) else .error .tooManyDigits := by
  rw [Graph.emit_eq, Writer.text, failed_write]
  cases Json.allShort g.scriptValues <;> rfl

theorem emit_eq_ok_iff {g : Graph} {source : Text} :
    emit g = .ok source ↔ Json.allShort g.scriptValues = true ∧ source = draft g := by
  rw [emit_eq_draft]
  split
  · rename_i hshort
    simp [hshort, eq_comm]
  · rename_i hlong
    simp [hlong]

/-- The graph has a script with a property, unless a value that the script would
show cannot be written. -/
def Yields (g : Graph) (property : Text → Prop) : Prop :=
  (Json.allShort g.scriptValues = true ∧ ∃ source, emit g = .ok source ∧ property source) ∨
    (Json.allShort g.scriptValues = false ∧ emit g = .error .tooManyDigits)

/-- What holds of the script, if there is one, the graph yields. -/
theorem yields_of_emit {g : Graph} {property : Text → Prop}
    (h : ∀ source, emit g = .ok source → property source) : Yields g property := by
  unfold Yields
  cases hshort : Json.allShort g.scriptValues with
  | true =>
    have hsource : emit g = .ok (draft g) := emit_eq_ok_iff.mpr ⟨hshort, rfl⟩
    exact Or.inl ⟨rfl, draft g, hsource, h _ hsource⟩
  | false => exact Or.inr ⟨rfl, by rw [emit_eq_draft, hshort]; rfl⟩

theorem yields_of_draft {g : Graph} {property : Text → Prop} (h : property (draft g)) :
    Yields g property := by
  apply yields_of_emit
  intro source hsource
  rw [(emit_eq_ok_iff.mp hsource).2]
  exact h

theorem Yields.exists_source {g : Graph} {property : Text → Prop} (h : Yields g property)
    (hshort : Json.allShort g.scriptValues = true) :
    ∃ source, emit g = .ok source ∧ property source := by
  obtain ⟨_, hsource⟩ | ⟨hlong, _⟩ := h
  · exact hsource
  · rw [hshort] at hlong
    cases hlong

end Script

end PipelineBoard
