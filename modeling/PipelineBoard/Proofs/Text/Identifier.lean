-- What a label keeps when its gaps are collapsed: its runs of word characters, with
-- one underscore for each run of others between and around them.
import Mathlib.Data.List.SplitBy
import PipelineBoard.Proofs.Text.Lines

namespace PipelineBoard.Text

/-- Word characters stand as they are. -/
theorem collapse_eq_self {cs : List Point} (h : ∀ c ∈ cs, isWord c = true) :
    collapse false cs = cs := by
  induction cs with
  | nil => rfl
  | cons c cs ih =>
    rw [collapse, if_pos (h c List.mem_cons_self), ih fun d hd => h d (List.mem_cons_of_mem _ hd)]

/-- Every gap leaves an underscore behind. -/
theorem isWord_of_no_score {cs : List Point} (h : Point.scalar '_' ∉ collapse false cs) :
    ∀ c ∈ cs, isWord c = true := by
  induction cs with
  | nil => simp
  | cons c cs ih =>
    rw [collapse] at h
    split at h
    · rename_i hc
      rw [List.mem_cons, not_or] at h
      exact List.forall_mem_cons.mpr ⟨hc, ih h.2⟩
    · simp at h

theorem head?_collapse (cs : List Point) :
    (collapse false cs).head? = cs.head?.map fun c => if isWord c then c else '_' := by
  cases cs with
  | nil => rfl
  | cons c cs =>
    rw [collapse]
    split <;> simp_all

/-- The name of a label that is not empty. -/
theorem identifier_of_ne {label : Text} (h : label ≠ "") (fallback : Text) (index : Int) :
    identifier label fallback index = Text.ofList (collapse false label.toList) := by
  unfold identifier
  rw [if_neg]
  rwa [Text.isEmpty_iff]

theorem identifier_empty (fallback : Text) (index : Int) :
    identifier "" fallback index = fallback ++ "_" ++ index.repr := rfl

/-! ## Maximal runs -/

/-- Both are word characters, or neither is. -/
def isAlike (c d : Point) : Bool := isWord c == isWord d

/-- The maximal runs of a text, in order: of word characters, and of others. -/
def runs (cs : List Point) : List (List Point) := cs.splitBy isAlike

/-- What is kept of a run: all of a run of word characters, and an underscore of
any other one. -/
def keptOf (run : List Point) : List Point := if run.all isWord then run else [.scalar '_']

/-- A run holds word characters only, or none. -/
theorem all_or_none_of_isChain {run : List Point} (h : run.IsChain fun c d => isAlike c d = true) :
    (∀ c ∈ run, isWord c = true) ∨ ∀ c ∈ run, isWord c = false := by
  rcases run with _ | ⟨first, rest⟩
  · exact Or.inl (by simp)
  · have : Trans (fun c d => isAlike c d = true) (fun c d => isAlike c d = true)
        (fun c d => isAlike c d = true) := ⟨fun hcd hde => by simp_all [isAlike]⟩
    have hrest : ∀ d ∈ rest, isWord d = isWord first := fun d hd =>
      (beq_iff_eq.mp (h.rel_cons hd)).symm
    rcases hfirst : isWord first with _ | _
    · right
      simpa [hfirst] using hrest
    · left
      simpa [hfirst] using hrest

theorem keptOf_words {run : List Point} (h : ∀ c ∈ run, isWord c = true) : keptOf run = run :=
  if_pos (List.all_eq_true.mpr h)

theorem keptOf_gap {run : List Point} (hne : run ≠ []) (h : ∀ c ∈ run, isWord c = false) :
    keptOf run = [.scalar '_'] := by
  obtain ⟨c, hc⟩ := List.exists_mem_of_ne_nil run hne
  refine if_neg fun hall => ?_
  have hword := List.all_eq_true.mp hall c hc
  rw [h c hc] at hword
  cases hword

theorem collapse_words_append {word : List Point} (h : ∀ c ∈ word, isWord c = true)
    (rest : List Point) : collapse false (word ++ rest) = word ++ collapse false rest := by
  induction word with
  | nil => rfl
  | cons c word ih =>
    obtain ⟨hc, hword⟩ := List.forall_mem_cons.mp h
    rw [List.cons_append, collapse, if_pos hc, ih hword, List.cons_append]

/-- Behind its underscore nothing is left of a gap. -/
theorem collapse_gap_append {gap : List Point} (h : ∀ c ∈ gap, isWord c = false)
    (rest : List Point) : collapse true (gap ++ rest) = collapse true rest := by
  induction gap with
  | nil => rfl
  | cons c gap ih =>
    obtain ⟨hc, hgap⟩ := List.forall_mem_cons.mp h
    simp [collapse, hc, ih hgap]

/-- A gap that a word follows ends there. -/
theorem collapse_gap_end {rest : List Point} (h : ∀ c ∈ rest.head?, isWord c = true) :
    collapse true rest = collapse false rest := by
  rcases rest with _ | ⟨c, rest⟩
  · rfl
  · simp [collapse, h c rfl]

/-- Runs that are maximal are collapsed one by one. -/
theorem collapse_flatten {parts : List (List Point)} (filled : [] ∉ parts)
    (alike : ∀ run ∈ parts, run.IsChain fun c d => isAlike c d = true)
    (apart : parts.IsChain fun run next => ∃ hrun hnext,
      isAlike (run.getLast hrun) (next.head hnext) = false) :
    collapse false parts.flatten = parts.flatMap keptOf := by
  induction parts with
  | nil => rfl
  | cons run rest ih =>
    rw [List.mem_cons, not_or] at filled
    have hrest := ih filled.2 (fun other hother => alike other (List.mem_cons_of_mem _ hother))
      apart.tail
    rw [List.flatten_cons, List.flatMap_cons]
    rcases all_or_none_of_isChain (alike run List.mem_cons_self) with hword | hgap
    · rw [collapse_words_append hword, hrest, keptOf_words hword]
    · -- The run that follows a gap is one of word characters.
      have hnext : ∀ c ∈ rest.flatten.head?, isWord c = true := by
        rcases rest with _ | ⟨next, more⟩
        · simp
        · obtain ⟨hrun, hsome, hother⟩ := (List.isChain_cons_cons.mp apart).1
          obtain ⟨d, next, rfl⟩ := List.exists_cons_of_ne_nil hsome
          have hlast := hgap _ (List.getLast_mem hrun)
          simpa [isAlike, hlast] using hother
      obtain ⟨c, run, rfl⟩ := List.exists_cons_of_ne_nil (Ne.symm filled.1)
      obtain ⟨hc, hrun⟩ := List.forall_mem_cons.mp hgap
      rw [keptOf_gap (List.cons_ne_nil c run) hgap, List.singleton_append, ← hrest,
        ← collapse_gap_end hnext, ← collapse_gap_append hrun, List.cons_append]
      simp [collapse, hc]

/-- A label is collapsed run by run. -/
theorem collapse_eq_flatMap (cs : List Point) : collapse false cs = (runs cs).flatMap keptOf := by
  have h := collapse_flatten (List.nil_notMem_splitBy isAlike cs)
    (fun _ hrun => List.isChain_of_mem_splitBy hrun) (List.isChain_getLast_head_splitBy isAlike cs)
  rw [List.flatten_splitBy] at h
  exact h

/-! ## The variable name of a label -/

theorem identifier_of_words {label : Text} (hne : label ≠ "")
    (h : ∀ c ∈ label.toList, isWord c = true) (fallback : Text) (index : Int) :
    identifier label fallback index = label := by
  rw [identifier_of_ne hne, collapse_eq_self h, Text.ofList_toList]

/-- The name of a label keeps its runs of word characters as they are and in order,
and has one underscore for each run of others, also in front and at the end. It is
not empty and has word characters only, so it is the label itself just if that is
a word, and a name is its own name. -/
theorem an_identifier_keeps_the_words_of_a_label (label : Text) {fallback : Text}
    (hfallback : ∀ c ∈ fallback.toList, isWord c = true) (index : Nat) :
    (label ≠ "" →
      (identifier label fallback index).toList = (runs label.toList).flatMap keptOf) ∧
    identifier label fallback index ≠ "" ∧
    (∀ c ∈ (identifier label fallback index).toList, isWord c = true) ∧
    (identifier label fallback index = label ↔
      label ≠ "" ∧ ∀ c ∈ label.toList, isWord c = true) ∧
    ∀ other again, identifier (identifier label fallback index) other again =
      identifier label fallback index := by
  have hne : identifier label fallback index ≠ "" := fun hnone =>
    identifier_ne_empty label index (Text.toList_eq_nil_iff.mpr hnone)
  have hword := isWord_of_mem_identifier label hfallback index
  refine ⟨fun hlabel => ?_, hne, hword, ?_, identifier_of_words hne hword⟩
  · rw [identifier_of_ne hlabel, Text.toList_ofList, collapse_eq_flatMap]
  · constructor
    · intro hsame
      rw [hsame] at hne hword
      exact ⟨hne, hword⟩
    · rintro ⟨hlabel, hwords⟩
      exact identifier_of_words hlabel hwords fallback index

/-- Gaps in front, between and at the end, one of them beside underscores of the
label's own. -/
theorem the_identifier_of_a_label_with_gaps :
    (∀ c ∈ (Text.toList "dataset"), isWord c = true) ∧ (" my set__(v2)!" : Text) ≠ "" ∧
      (runs (Text.toList " my set__(v2)!")).map Text.ofList =
        ([" ", "my", " ", "set__", "(", "v2", ")!"] : List Text) ∧
      (identifier " my set__(v2)!" "dataset" 0).toList =
        (runs (Text.toList " my set__(v2)!")).flatMap keptOf ∧
      (runs (Text.toList " my set__(v2)!")).flatMap keptOf = (Text.toList "_my_set___v2_") ∧
      identifier (identifier " my set__(v2)!" "dataset" 0) "transform" 3 =
        identifier " my set__(v2)!" "dataset" 0 := by
  have hfallback : ∀ c ∈ (Text.toList "dataset"), isWord c = true := forall_mem_given rfl
  have hne : (" my set__(v2)!" : Text) ≠ "" := by decide
  obtain ⟨hkept, _, _, _, hagain⟩ :=
    an_identifier_keeps_the_words_of_a_label " my set__(v2)!" hfallback 0
  exact ⟨hfallback, hne, by decide, hkept hne, by decide, hagain "transform" 3⟩

end PipelineBoard.Text
