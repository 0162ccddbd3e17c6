-- Paths in normal form: what a text writes is one, and it is the path that its own
-- text writes.
import PipelineBoard.Storage.Path

namespace PipelineBoard.Path

/-! ## Pieces between marks -/

section

variable {α : Type} [DecidableEq α] (mark : α)

theorem cutAt_eq_splitOn (cs : List α) : cutAt mark cs = cs.splitOn mark := by
  induction cs with
  | nil => rfl
  | cons c rest ih =>
    rw [List.splitOn_cons_eq_if_modifyHead, cutAt, ih]
    by_cases hc : c = mark
    · simp [hc]
    · simp only [hc, if_false, beq_iff_eq]
      cases hrest : rest.splitOn mark with
      | nil => exact absurd hrest (List.splitOn_ne_nil mark rest)
      | cons piece pieces => rfl

theorem cutAt_ne_nil (cs : List α) : cutAt mark cs ≠ [] := by
  rw [cutAt_eq_splitOn]
  exact List.splitOn_ne_nil mark cs

theorem cutAt_append (cs rest : List α) :
    cutAt mark (cs ++ mark :: rest) = cutAt mark cs ++ cutAt mark rest := by
  simp only [cutAt_eq_splitOn, List.splitOn_append_cons_self]

theorem intercalate_cutAt (cs : List α) : [mark].intercalate (cutAt mark cs) = cs := by
  rw [cutAt_eq_splitOn, List.intercalate_splitOn]

variable {mark} {cs : List α}

theorem cutAt_of_not_mem (h : mark ∉ cs) : cutAt mark cs = [cs] := by
  rw [cutAt_eq_splitOn, List.splitOn_eq_singleton h]

/-- The pieces between marks hold everything but the marks. -/
theorem exists_mem_cutAt {c : α} (h : c ≠ mark) : (∃ piece ∈ cutAt mark cs, c ∈ piece) ↔ c ∈ cs := by
  induction cs with
  | nil => simp [cutAt]
  | cons d rest ih =>
    rw [cutAt, List.mem_cons, ← ih]
    split
    next hd => simp [hd, h]
    next hd =>
      split
      next hrest => simp [hrest]
      next piece pieces hrest => simp [hrest, or_assoc]

theorem not_mem_of_mem_cutAt : ∀ piece ∈ cutAt mark cs, mark ∉ piece := by
  induction cs with
  | nil => simp [cutAt]
  | cons c rest ih =>
    rw [cutAt]
    by_cases hc : c = mark
    · rw [if_pos hc]
      exact List.forall_mem_cons.mpr ⟨by simp, ih⟩
    · rw [if_neg hc]
      cases hrest : cutAt mark rest with
      | nil => simpa using Ne.symm hc
      | cons piece pieces =>
        rw [hrest] at ih
        obtain ⟨hfirst, hothers⟩ := List.forall_mem_cons.mp ih
        refine List.forall_mem_cons.mpr ⟨?_, hothers⟩
        rw [List.mem_cons, not_or]
        exact ⟨Ne.symm hc, hfirst⟩

end

/-! ## Normal form -/

/-- A name that a path may have: not empty, no single dot, and in one piece. -/
structure IsName (name : Text) : Prop where
  nonempty : name ≠ ""
  noDot : name ≠ "."
  noSlash : Point.scalar '/' ∉ name.toList

structure Normal (p : Path) : Prop where
  root : p.root = "" ∨ p.root = "/" ∨ p.root = "//"
  names : ∀ name ∈ p.names, IsName name

theorem normal_ofString (text : Text) : (ofString text).Normal := by
  constructor
  · unfold ofString rootOf
    split
    · exact .inl rfl
    · exact .inr (.inr rfl)
    · exact .inr (.inl rfl)
  · intro name hname
    unfold ofString at hname
    simp only [List.mem_filter, List.mem_map, Bool.and_eq_true, decide_eq_true_eq]
      at hname
    obtain ⟨⟨piece, hpiece, rfl⟩, hnonempty, hnoDot⟩ := hname
    refine ⟨hnonempty, hnoDot, ?_⟩
    rw [Text.toList_ofList]
    exact not_mem_of_mem_cutAt piece hpiece

theorem Normal.child {p : Path} (h : p.Normal) {name : Text} (hname : IsName name) :
    (p.child name).Normal := by
  refine ⟨h.root, fun other hother => ?_⟩
  rcases List.mem_append.mp hother with hother | hother
  · exact h.names other hother
  · rw [List.mem_singleton.mp hother]
    exact hname

/-! ## The text of a path -/

/-- The names of a path between slashes. -/
def joined (names : List Text) : List Point := [.scalar '/'].intercalate (names.map Text.toList)

theorem toList_text {p : Path} (h : p.root ≠ "" ∨ p.names ≠ []) :
    p.text.toList = p.root.toList ++ joined p.names := by
  unfold text joined
  rw [if_neg, Text.toList_append, Text.toList_intercalate]
  · rfl
  · simp only [Bool.and_eq_true, Text.isEmpty_iff, List.isEmpty_iff, not_and]
    intro hroot
    exact h.resolve_left (not_not_intro hroot)

/-- The names are read back from their text, whatever slashes stand before it. -/
theorem names_joined {names : List Text} (h : ∀ name ∈ names, IsName name) :
    ((cutAt (.scalar '/') (joined names)).map Text.ofList).filter
      (fun name : Text => name ≠ "" && name ≠ ".") = names := by
  by_cases hempty : names = []
  · subst hempty
    rfl
  · have hpieces : cutAt (.scalar '/') (joined names) = names.map Text.toList := by
      rw [cutAt_eq_splitOn]
      apply List.splitOn_intercalate
      · intro piece hpiece
        obtain ⟨name, hname, rfl⟩ := List.mem_map.mp hpiece
        exact (h name hname).noSlash
      · simpa using hempty
    rw [hpieces, List.map_map]
    have hsame : Text.ofList ∘ Text.toList = id := funext Text.ofList_toList
    rw [hsame, List.map_id, List.filter_eq_self]
    intro name hname
    simp [(h name hname).nonempty, (h name hname).noDot]

theorem head_joined {names : List Text} (h : ∀ name ∈ names, IsName name) :
    (joined names).takeWhile (· == .scalar '/') = [] := by
  rcases names with _ | ⟨name, rest⟩
  · rfl
  · obtain ⟨hnonempty, _, hslash⟩ := h name List.mem_cons_self
    have hstart : ∃ others, joined (name :: rest) = name.toList ++ others := by
      cases rest with
      | nil => exact ⟨[], by simp [joined]⟩
      | cons next others => exact ⟨_, by rw [joined, List.map_cons, List.map_cons,
          List.intercalate_cons_cons, List.append_assoc]⟩
    obtain ⟨others, hjoined⟩ := hstart
    rcases hname : name.toList with _ | ⟨c, cs⟩
    · exact absurd (Text.toList_eq_nil_iff.mp hname) hnonempty
    · rw [hname] at hslash
      rw [hjoined, hname]
      have hc : c ≠ '/' := fun hc => hslash (hc ▸ List.mem_cons_self)
      simp [hc]

/-- A path in normal form is what its text writes. -/
theorem ofString_text {p : Path} (h : p.Normal) : ofString p.text = p := by
  by_cases hempty : p.root ≠ "" ∨ p.names ≠ []
  · have hnames := names_joined h.names
    have hhead := head_joined h.names
    obtain ⟨root, names⟩ := p
    unfold ofString
    rw [toList_text hempty]
    -- Each slash of the root ends one more empty piece.
    have hcut : ∀ cs : List Point,
        cutAt (.scalar '/') (.scalar '/' :: cs) = [] :: cutAt (.scalar '/') cs := fun _ => rfl
    have hroot : root = "" ∨ root = "/" ∨ root = "//" := h.root
    rcases hroot with rfl | rfl | rfl
    · exact congr (congrArg Path.mk (by simp [rootOf, hhead])) hnames
    · refine congr (congrArg Path.mk (by simp [rootOf, hhead])) (Eq.trans ?_ hnames)
      simp [hcut]
    · refine congr (congrArg Path.mk (by simp [rootOf, hhead])) (Eq.trans ?_ hnames)
      simp [hcut]
  · obtain ⟨root, names⟩ := p
    simp only [ne_eq, not_or, Decidable.not_not] at hempty
    obtain ⟨rfl, rfl⟩ := hempty
    rfl

end PipelineBoard.Path
