-- The characters of the file name of a script, and which names it keeps as they are.
import PipelineBoard.Proofs.Text.Codec
import PipelineBoard.Proofs.Text.Encodable
import PipelineBoard.Script.FileName

namespace PipelineBoard

open Text

namespace Script

/-- No character of a file name is unsafe, whatever the project name. -/
theorem isUnsafe_of_mem_fileName (name : Text) :
    ∀ c ∈ (fileName name).toList, isUnsafe c = false := by
  have hscore : isUnsafe '_' = false := by decide
  have hstem : ∀ c ∈ (stem name).toList, isUnsafe c = false := by
    intro c hc
    unfold stem at hc
    rw [Text.toList_ofList] at hc
    have hsafe := mem_of_mem_trimBy ((List.dropWhile_suffix _).subset hc)
    obtain ⟨d, _, rfl⟩ := List.mem_map.mp hsafe
    split
    next => exact hscore
    next hd => simpa using hd
  have hdefault : ∀ c ∈ defaultName.toList, (!isUnsafe c) = true := forall_mem_given rfl
  have hending : ∀ c ∈ (Text.toList ".py"), (!isUnsafe c) = true := forall_mem_given rfl
  intro c hc
  unfold fileName nameOrDefault at hc
  rw [Text.toList_append, List.mem_append] at hc
  rcases hc with hc | hc
  · split at hc
    next => simpa using hdefault c hc
    next => exact hstem c hc
  · simpa using hending c hc

theorem not_hasNull_fileName (name : Text) : ¬ HasNull (fileName name) := by
  intro hnull
  have hunsafe : isUnsafe '\x00' = true := by decide
  rw [isUnsafe_of_mem_fileName name _ hnull] at hunsafe
  cases hunsafe

theorem isEncodable_nameOrDefault {name : Text} (h : name.isEncodable = true) :
    (nameOrDefault name).isEncodable = true := by
  unfold nameOrDefault
  split
  next => rfl
  next => exact h

/-- The file name has a form in UTF-8 if the project name has one. -/
theorem isEncodable_fileName {name : Text} (h : name.isEncodable = true) :
    (fileName name).isEncodable = true := by
  have hstem : (stem name).isEncodable = true := by
    rw [isEncodable_iff_forall] at h ⊢
    intro p hp
    rw [stem, Text.toList_ofList] at hp
    obtain ⟨c, hc, rfl⟩ := List.mem_map.mp (mem_of_mem_trimBy ((List.dropWhile_suffix _).subset hp))
    split
    next => exact ⟨'_', rfl⟩
    next => exact h c hc
  rw [fileName, isEncodable_append, isEncodable_nameOrDefault hstem]
  rfl

/-! ## Components of paths -/

/-- The characters that a path, a shell or a file system gives a meaning to. -/
def reserved : List Point := ['/', '\\', ':', '*', '?', '"', '<', '>', '|']

/-- A name that stands as one component of a path everywhere: not empty, not
hidden behind a dot, and without reserved characters and controls. -/
structure IsComponent (name : Text) : Prop where
  nonempty : name ≠ ""
  noDot : name.toList.head? ≠ some (.scalar '.')
  plain : ∀ c ∈ name.toList, c ∉ reserved ∧ 32 ≤ c.toNat

theorem isUnsafe_eq_false_iff {c : Point} :
    isUnsafe c = false ↔ c ∉ reserved ∧ 32 ≤ c.toNat := by
  rw [isUnsafe, Bool.or_eq_false_iff, decide_eq_false_iff_not, Nat.not_lt, and_comm]
  apply and_congr_left'
  cases c with
  | scalar c => simp [reserved, and_left_comm]
  | lone half => simp [reserved]

/-- A name that is given in full is a component if its characters are looked through. -/
theorem isComponent_given {cs : List Char} (hnonempty : cs.isEmpty = false)
    (hdot : (cs.head? != some '.') = true)
    (hsafe : cs.all (fun c => !isUnsafe (.scalar c)) = true) : IsComponent (String.ofList cs) := by
  have hchars := toList_given cs
  refine ⟨?_, ?_, fun c hc => isUnsafe_eq_false_iff.mp ?_⟩
  · rw [ne_eq, ← toList_eq_nil_iff, hchars]
    simpa using hnonempty
  · rw [hchars]
    simpa using hdot
  · simpa using forall_mem_given (p := fun c => !isUnsafe c) hsafe c hc

/-- A character that starts no dropped run is not of its class. -/
theorem head_dropWhile_ne (c : Point) (cs : List Point) : (cs.dropWhile (· == c)).head? ≠ some c := by
  intro h
  have hnot := List.head?_dropWhile_not (· == c) cs
  rw [h] at hnot
  simp at hnot

/-- The stem of a file name is a component, whatever the project name. -/
theorem isComponent_stem (name : Text) : IsComponent (nameOrDefault (stem name)) := by
  by_cases hempty : stem name = ""
  · rw [hempty]
    exact isComponent_given rfl rfl rfl
  · rw [nameOrDefault_eq_self hempty]
    refine ⟨hempty, ?_, fun c hc => isUnsafe_eq_false_iff.mp ?_⟩
    · rw [stem, Text.toList_ofList]
      exact head_dropWhile_ne '.' _
    · apply isUnsafe_of_mem_fileName name c
      rw [fileName, nameOrDefault_eq_self hempty, Text.toList_append]
      exact List.mem_append_left _ hc

/-- A component without blanks at its ends is its own stem. -/
theorem stem_eq_self {name : Text} (h : IsComponent name)
    (hfirst : ∀ c ∈ name.toList.head?, isBlank c = false)
    (hlast : ∀ c ∈ name.toList.getLast?, isBlank c = false) : stem name = name := by
  have hsafe : (name.toList.map fun c => if isUnsafe c then .scalar '_' else c) = name.toList := by
    refine Eq.trans (List.map_congr_left fun c hc => ?_) (List.map_id _)
    rw [isUnsafe_eq_false_iff.mpr (h.plain c hc)]
    rfl
  have hkept : ∀ {p : Point → Bool} {cs : List Point}, (∀ c ∈ cs.head?, p c = false) →
      cs.dropWhile p = cs := by
    intro p cs hcs
    cases cs with
    | nil => rfl
    | cons c rest => simp [hcs c rfl]
  have htrim : trimBy isBlank name.toList = name.toList := by
    rw [trimBy, hkept hfirst, dropTail, hkept, List.reverse_reverse]
    rwa [List.head?_reverse]
  have hdot : ∀ c ∈ name.toList.head?, (c == '.') = false := by
    intro c hc
    rw [beq_eq_false_iff_ne]
    rintro rfl
    exact h.noDot hc
  rw [stem, hsafe, htrim, hkept hdot, Text.ofList_toList]

end Script

end PipelineBoard
