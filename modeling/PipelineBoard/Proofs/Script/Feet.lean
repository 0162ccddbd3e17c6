-- The footprint of a line of code: which of the names that the lines of a script
-- share it binds, and which of them it reads.
import PipelineBoard.Proofs.Script.Emit
import PipelineBoard.Proofs.Script.Names

namespace PipelineBoard.Script

open Text

/-! ## The names of a script's own -/

/-- The names that the lines of a script share. -/
inductive Name where
  | torch
  | nn
  | optim
  | dataLoader
  | device
  | trainDs
  | valDs
  | model
  | criterion
  | optimizer
  | trainLoader
  | valLoader
deriving DecidableEq

namespace Name

def all : List Name := [
  torch, nn, optim, dataLoader, device, trainDs, valDs, model, criterion, optimizer, trainLoader,
  valLoader]

def text : Name → Text
  | torch => "torch"
  | nn => "nn"
  | optim => "optim"
  | dataLoader => "DataLoader"
  | device => "device"
  | trainDs => "train_ds"
  | valDs => "val_ds"
  | model => "model"
  | criterion => "criterion"
  | optimizer => "optimizer"
  | trainLoader => "train_loader"
  | valLoader => "val_loader"

/-- The stage whose fragment binds the name; the header binds the others. -/
def stage? : Name → Option Stage
  | torch | nn | optim | dataLoader | device => none
  | trainDs | valDs => some .split
  | model => some .model
  | criterion => some .loss
  | optimizer => some .optimizer
  | trainLoader | valLoader => some .trainer

theorem mem_all (name : Name) : name ∈ all := by cases name <;> decide

end Name

/-! ## Footprints -/

/-- The names of the script's own that a line binds, and those that it reads. -/
structure Foot where
  binds : List Name
  reads : List Name
deriving DecidableEq

/-- The names of the script's own among some words. -/
def known (words : List Text) : List Name := Name.all.filter fun name => words.contains name.text

def Uses.foot (u : Uses) : Foot := ⟨known u.binds, known u.reads⟩

def foot (text : Text) : Foot := (uses text).foot

theorem mem_known {words : List Text} {name : Name} : name ∈ known words ↔ name.text ∈ words := by
  simp [known, Name.mem_all]

theorem foot_given {cs : List Char} {f : Foot}
    (h : (statementUses (lex (.code false) (cs.map Point.scalar))).foot = f) :
    foot (String.ofList cs) = f := by
  rw [← h, foot, uses_given rfl]

/-- The footprints of some lines, one each and in this order. -/
def HaveFeet (texts : List Text) (feet : List Foot) : Prop := texts.map foot = feet

theorem haveFeet_nil : HaveFeet [] [] := rfl

theorem HaveFeet.cons {text : Text} {f : Foot} {texts : List Text} {feet : List Foot}
    (hfoot : foot text = f) (h : HaveFeet texts feet) : HaveFeet (text :: texts) (f :: feet) := by
  unfold HaveFeet at h ⊢
  rw [List.map_cons, hfoot, h]

def headerFeet : List Foot := [
  ⟨[.torch], []⟩, ⟨[.nn], []⟩, ⟨[.optim], []⟩, ⟨[.dataLoader], []⟩, ⟨[.device], [.torch]⟩]

def splitFeet : List Foot := [⟨[.trainDs, .valDs], []⟩]

def modelFeet : List Foot := [
  ⟨[], [.nn]⟩, ⟨[], []⟩, ⟨[], []⟩, ⟨[], [.nn]⟩, ⟨[], []⟩, ⟨[], []⟩, ⟨[.model], [.device]⟩]

def lossFeet : List Foot := [⟨[.criterion], [.nn]⟩]

def optimizerFeet : List Foot := [⟨[.optimizer], [.optim, .model]⟩]

def trainerFeet : List Foot := [
  ⟨[.trainLoader], [.dataLoader, .trainDs]⟩, ⟨[.valLoader], [.dataLoader, .valDs]⟩, ⟨[], []⟩,
  ⟨[], [.model]⟩, ⟨[], [.trainLoader]⟩, ⟨[], [.device]⟩, ⟨[], [.optimizer]⟩, ⟨[], [.model]⟩,
  ⟨[], [.criterion]⟩, ⟨[], []⟩, ⟨[], [.optimizer]⟩, ⟨[], []⟩]

def metricFeet : List Foot := [
  ⟨[], [.model]⟩, ⟨[], []⟩, ⟨[], []⟩, ⟨[], [.torch]⟩, ⟨[], [.valLoader]⟩, ⟨[], [.device]⟩,
  ⟨[], [.model]⟩, ⟨[], []⟩, ⟨[], []⟩, ⟨[], []⟩, ⟨[], []⟩]

def footerFeet : List Foot := [⟨[], [.torch, .model]⟩]

theorem feet_header : HaveFeet headerCode headerFeet := by
  repeat refine .cons (foot_given rfl) ?_
  exact haveFeet_nil

theorem feet_split : HaveFeet splitCode splitFeet := .cons (foot_given rfl) haveFeet_nil

theorem feet_model : HaveFeet modelCode modelFeet := by
  repeat refine .cons (foot_given rfl) ?_
  exact haveFeet_nil

theorem feet_loss : HaveFeet lossCode lossFeet := .cons (foot_given rfl) haveFeet_nil

theorem feet_metric : HaveFeet metricCode metricFeet := by
  repeat refine .cons (foot_given rfl) ?_
  exact haveFeet_nil

/-! ## Footprints of lines with a number or a quoted text in them -/

theorem known_append_of_inNumber {nums : List Token} (h : ∀ token ∈ nums, token.InNumber)
    (toks others : List Token) :
    known (names (toks ++ (nums ++ others))) = known (names (toks ++ others)) := by
  have hname : ∀ name : Name, name.text.toList.all isNumeral = false := by
    intro name
    cases name <;> decide
  apply List.filter_congr
  intro name _
  have hnums := not_mem_names_of_inNumber h (hname name)
  simp [names_append, hnums]

section

variable {front number behind : Text}

/-- A number in front of a comma or a closing bracket, in a statement whose
first tokens are known. -/
theorem tokens_number {toks : List Token}
    (hfront : scan (.code false) front.toList = (toks, .code false))
    (hnumber : ∀ d ∈ number.toList, isNumeral d = true)
    (hbehind : ∃ c ∈ behind.toList.head?, c = ',' ∨ c = ')') :
    ∃ nums, (∀ token ∈ nums, token.InNumber) ∧
      tokens (front ++ number ++ behind) = toks ++ (nums ++ lex (.code false) behind.toList) := by
  obtain ⟨c, hhead, hc⟩ := hbehind
  obtain ⟨rest, hrest⟩ := List.head?_eq_some_iff.mp hhead
  obtain ⟨nums, hnums, hlex⟩ := (lex_number hc hnumber).1 false
  refine ⟨nums, hnums, ?_⟩
  rw [Text.append_assoc, tokens_append hfront, Text.toList_append,
    hrest, hlex]

/-- The footprint of an assignment with a number in its value is the one
without the number. -/
theorem foot_number {word : Text} {value : List Token}
    (hfront : scan (.code false) front.toList = (.name word :: .sign '=' :: value, .code false))
    (hnumber : ∀ d ∈ number.toList, isNumeral d = true)
    (hbehind : ∃ c ∈ behind.toList.head?, c = ',' ∨ c = ')') :
    foot (front ++ number ++ behind) =
      ⟨known [word], known (names (value ++ lex (.code false) behind.toList))⟩ := by
  obtain ⟨nums, hnums, htokens⟩ := tokens_number hfront hnumber hbehind
  have huses : uses (front ++ number ++ behind) =
      ⟨[word], names (value ++ (nums ++ lex (.code false) behind.toList))⟩ := by
    unfold uses
    rw [htokens]
    rfl
  rw [foot, huses, Uses.foot, known_append_of_inNumber hnums]

end

theorem feet_optimizer (node : Node) : HaveFeet (optimizerCode node) optimizerFeet := by
  have hrate : ∀ d ∈ (Params.numberOr node.params "lr" Fragment.defaultRate).literal.toList,
      isNumeral d = true :=
    Json.isNumeral_of_mem_literal (Fragment.isNumber_numberOr _ _ (by decide +kernel))
  have hfront : scan (.code false) (Text.toList "optimizer = optim.Adam(model.parameters(), lr=") =
      (.name "optimizer" :: .sign '=' :: [.name "optim", .member "Adam", .sign '(', .name "model",
        .member "parameters", .sign '(', .sign ')', .sign ',', .name "lr", .sign '='],
      .code false) := scan_given rfl
  exact .cons ((foot_number hfront hrate ⟨_, rfl, .inr rfl⟩).trans rfl) haveFeet_nil

theorem foot_loop {number : Text} (hnumber : ∀ d ∈ number.toList, isNumeral d = true) :
    foot ("for epoch in range(" ++ number ++ "):") = ⟨[], []⟩ := by
  have hfront : scan (.code false) (Text.toList "for epoch in range(") =
      ([.name "for", .name "epoch", .name "in", .name "range", .sign '('], .code false) :=
    scan_given rfl
  obtain ⟨nums, hnums, htokens⟩ : ∃ nums, (∀ token ∈ nums, Token.InNumber token) ∧
      tokens ("for epoch in range(" ++ number ++ "):") =
        [.name "for", .name "epoch", .name "in", .name "range", .sign '('] ++
          (nums ++ [.sign ')', .sign ':']) := tokens_number hfront hnumber ⟨_, rfl, .inr rfl⟩
  have huses : uses ("for epoch in range(" ++ number ++ "):") =
      ⟨["epoch"], names ([.name "range", .sign '('] ++ (nums ++ [.sign ')', .sign ':']))⟩ := by
    unfold uses
    rw [htokens]
    rfl
  rw [foot, huses, Uses.foot, known_append_of_inNumber hnums]
  rfl

theorem feet_trainer (node : Node) : HaveFeet (trainerCode node) trainerFeet := by
  have hsize := isNumeral_of_mem_repr (Params.count node.params "batch_size" 64)
  have hepochs := isNumeral_of_mem_repr (Params.count node.params "epochs" 3)
  have htrain : scan (.code false) (Text.toList "train_loader = DataLoader(train_ds, batch_size=") =
      (.name "train_loader" :: .sign '=' :: [.name "DataLoader", .sign '(', .name "train_ds",
        .sign ',', .name "batch_size", .sign '='], .code false) := scan_given rfl
  have hval : scan (.code false) (Text.toList "val_loader = DataLoader(val_ds, batch_size=") =
      (.name "val_loader" :: .sign '=' :: [.name "DataLoader", .sign '(', .name "val_ds",
        .sign ',', .name "batch_size", .sign '='], .code false) := scan_given rfl
  refine .cons ((foot_number htrain hsize ⟨_, rfl, .inl rfl⟩).trans rfl) ?_
  refine .cons ((foot_number hval hsize ⟨_, rfl, .inr rfl⟩).trans rfl) ?_
  refine .cons (foot_loop hepochs) ?_
  repeat refine .cons (foot_given rfl) ?_
  exact haveFeet_nil

theorem feet_footer (name : Text) : HaveFeet (footerCode name) footerFeet := by
  have htokens : tokens ("torch.save(model.state_dict(), " ++
      Text.ofList (doubleQuoted (artifactName name).toList) ++ ")") =
      [.name "torch", .member "save", .sign '(', .name "model", .member "state_dict", .sign '(',
        .sign ')', .sign ',', .sign ')'] := by
    have hfront : scan (.code false) (Text.toList "torch.save(model.state_dict(), ") =
        ([.name "torch", .member "save", .sign '(', .name "model", .member "state_dict", .sign '(',
          .sign ')', .sign ','], .code false) := scan_given rfl
    rw [Text.append_assoc, tokens_append hfront, Text.toList_append, Text.toList_ofList,
      lex_doubleQuoted]
    rfl
  refine .cons ?_ haveFeet_nil
  rw [foot, uses, htokens]
  rfl

/-- A line that takes a label binds it and reads at most one of the names. -/
theorem uses_data (label : Text) (index : Nat) :
    uses (identifier label "dataset" index ++ " = None  # TODO: load your dataset here") =
      ⟨[identifier label "dataset" index], ["None"]⟩ :=
  uses_assignment (identifier_ne_empty label index)
    (isWord_of_mem_identifier label (forall_mem_given rfl) index) [.name "None"] rfl

theorem uses_transform (label : Text) (index : Nat) :
    uses (identifier label "transform" index ++ " = nn.Identity()  # TODO: implement transform") =
      ⟨[identifier label "transform" index], ["nn"]⟩ :=
  uses_assignment (identifier_ne_empty label index)
    (isWord_of_mem_identifier label (forall_mem_given rfl) index)
    [.name "nn", .member "Identity", .sign '(', .sign ')'] rfl

end PipelineBoard.Script
