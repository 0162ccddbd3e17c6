-- Paths that the system can be asked about: which texts write one, and that such
-- a path is refused for no other reason than the tree gives.
import PipelineBoard.Proofs.Storage.Paths
import PipelineBoard.Proofs.Storage.Saving
import PipelineBoard.Proofs.Text.Codec
import PipelineBoard.Proofs.Text.Encodable

namespace PipelineBoard

/-! ## The code points of a path -/

namespace Path

section

variable {q : Point → Prop} (hslash : q (.scalar '/')) (hdot : q (.scalar '.'))
include hslash

theorem forall_mem_rootOf (cs : List Point) : ∀ c ∈ (rootOf cs).toList, q c := by
  unfold rootOf
  split <;> simp [hslash]

include hdot

/-- But for slashes and dots, the text of a path has what its front and its names
have. -/
theorem forall_mem_text (p : Path) : (∀ c ∈ p.text.toList, q c) ↔
    (∀ c ∈ p.root.toList, q c) ∧ ∀ name ∈ p.names, ∀ c ∈ name.toList, q c := by
  unfold text
  split
  next hempty =>
    simp only [Bool.and_eq_true, Text.isEmpty_iff, List.isEmpty_iff] at hempty
    have hmark : ∀ c ∈ Text.toList ".", q c := List.forall_mem_singleton.mpr hdot
    simpa [hempty.1, hempty.2] using hmark
  next =>
    have hmark : ∀ c ∈ Text.toList "/", q c := List.forall_mem_singleton.mpr hslash
    rw [Text.toList_append, List.forall_mem_append, Text.forall_mem_intercalate hmark]

/-- But for slashes and dots, the path of a text has what the text has. -/
theorem forall_mem_text_ofString (text : Text) :
    (∀ c ∈ (ofString text).text.toList, q c) ↔ ∀ c ∈ text.toList, q c := by
  rw [forall_mem_text hslash hdot]
  unfold ofString
  rw [and_iff_right (forall_mem_rootOf hslash _)]
  simp only [List.mem_filter, List.mem_map]
  constructor
  · intro h p hp
    by_cases hp' : p = .scalar '/'
    · rw [hp']
      exact hslash
    · obtain ⟨piece, hpiece, hmem⟩ := (exists_mem_cutAt hp').mpr hp
      by_contra hnot
      -- A piece with such a code point is neither empty nor a dot, so it stays.
      refine hnot (h _ ⟨⟨piece, hpiece, rfl⟩, ?_⟩ p hmem)
      simp only [ne_eq, Bool.and_eq_true, decide_eq_true_eq]
      constructor
      · rintro hempty
        rw [← Text.toList_inj] at hempty
        rw [show piece = [] from hempty] at hmem
        cases hmem
      · rintro hsingle
        rw [← Text.toList_inj] at hsingle
        rw [show piece = [.scalar '.'] from hsingle, List.mem_singleton] at hmem
        exact hnot (hmem ▸ hdot)
  · rintro h _ ⟨⟨piece, hpiece, rfl⟩, _⟩ p hp
    have hp' : p ≠ .scalar '/' := fun hp' => not_mem_of_mem_cutAt piece hpiece (hp' ▸ hp)
    exact h p ((exists_mem_cutAt hp').mp ⟨piece, hpiece, hp⟩)

theorem forall_mem_text_child (p : Path) (name : Text) : (∀ c ∈ (p.child name).text.toList, q c) ↔
    (∀ c ∈ p.text.toList, q c) ∧ ∀ c ∈ name.toList, q c := by
  rw [forall_mem_text hslash hdot, forall_mem_text hslash hdot]
  simp [child, or_imp, forall_and, and_assoc]

end

/-! ## Paths with a form in UTF-8 -/

theorem isEncodable_text_child (directory name : Text) :
    ((ofString directory).child name).text.isEncodable =
      (directory.isEncodable && name.isEncodable) := by
  have hscalar : ∀ c : Char, ∃ d : Char, Point.scalar c = .scalar d := fun c => ⟨c, rfl⟩
  rw [Bool.eq_iff_iff, Bool.and_eq_true]
  simp only [Text.isEncodable_iff_forall]
  rw [forall_mem_text_child (hscalar _) (hscalar _),
    forall_mem_text_ofString (hscalar _) (hscalar _)]

end Path

/-! ## Paths that can be asked about -/

/-- A path may hold the code point. -/
def Storage.canAsk (p : Point) : Bool := standsForBytes p && p != .scalar '\x00'

/-- The system can be asked about a path with this text. -/
def Text.IsAskable (t : Text) : Prop := ∀ p ∈ t.toList, Storage.canAsk p = true

instance (t : Text) : Decidable (Text.IsAskable t) :=
  inferInstanceAs (Decidable (∀ p ∈ t.toList, Storage.canAsk p = true))

open Text

theorem Text.isAskable_of_isEncodable {t : Text} (h : t.isEncodable = true) (hnull : ¬ HasNull t) :
    IsAskable t := by
  intro p hp
  obtain ⟨c, rfl⟩ := isEncodable_iff_forall.mp h p hp
  have hc : Point.scalar c ≠ .scalar '\x00' := by
    intro hc
    rw [hc] at hp
    exact hnull hp
  simpa [Storage.canAsk, Storage.standsForBytes] using hc

namespace Path

/-- The system can be asked about the path. -/
def IsAskable (p : Path) : Prop := Text.IsAskable p.text

theorem isAskable_ofString (text : Text) : (ofString text).IsAskable ↔ Text.IsAskable text :=
  forall_mem_text_ofString (by decide) (by decide) text

theorem isAskable_child (p : Path) (name : Text) :
    (p.child name).IsAskable ↔ p.IsAskable ∧ Text.IsAskable name :=
  forall_mem_text_child (by decide) (by decide) p name

end Path

namespace Storage

/-! ## Paths that are refused -/

theorem unaskable?_eq_none_iff {text : Text} : unaskable? text = none ↔ Text.IsAskable text := by
  have hpoints : Text.IsAskable text ↔
      text.toList.all standsForBytes = true ∧ text.toList.contains (.scalar '\x00') = false := by
    simp only [Text.IsAskable, canAsk, Bool.and_eq_true, bne_iff_ne, List.all_eq_true,
      forall_and]
    refine and_congr_right' ?_
    rw [← Bool.not_eq_true, List.contains_iff_mem]
    exact ⟨fun h hmem => h _ hmem rfl, fun h p hp hnull => h (hnull ▸ hp)⟩
  rw [hpoints]
  unfold unaskable?
  cases text.toList.all standsForBytes <;> cases text.toList.contains (.scalar '\x00') <;> simp

theorem isUnaskable_of_unaskable? {text : Text} {fault : PathFault}
    (h : unaskable? text = some fault) : fault.isUnaskable = true := by
  unfold unaskable? at h
  split at h
  · cases h
    rfl
  · split at h
    · cases h
      rfl
    · cases h

theorem find_of_unaskable (s : Storage) {path : Path} {fault : PathFault}
    (h : unaskable? path.text = some fault) : s.find path = .error fault := by
  rw [find, h]

theorem follow_not_unaskable (s : Storage) (place names : List Text) {fault : PathFault}
    (h : s.follow place names = .error fault) : fault.isUnaskable = false := by
  have hlook : ∀ {place name}, s.look place name = .error fault → fault.isUnaskable = false := by
    intro place name h
    unfold look at h
    split at h
    next => cases h
    next =>
      split at h
      next =>
        cases h
        rfl
      next => cases h
  fun_induction follow s place names with
  | case1 => cases h
  | case2 => exact hlook h
  | case3 place name rest hrest fault' hfault =>
    cases h
    exact hlook hfault
  | case4 =>
    cases h
    rfl
  | case5 =>
    cases h
    rfl
  | case6 _ _ _ _ _ _ ih => exact ih h

theorem find_not_unaskable (s : Storage) {path : Path} (h : path.IsAskable) {fault : PathFault}
    (hfind : s.find path = .error fault) : fault.isUnaskable = false := by
  rw [Path.IsAskable, ← unaskable?_eq_none_iff] at h
  rw [find, h] at hfind
  simp only at hfind
  split at hfind
  next =>
    cases hfind
    rfl
  next => exact follow_not_unaskable s _ _ hfind

/-! ## Writing and making directories -/

/-- A path that cannot be asked about is told as a whole, before any parent is
made. -/
theorem makeDirectories_of_unaskable (s : Storage) {path : Path} {fault : PathFault}
    (h : unaskable? path.text = some fault) :
    s.makeDirectories path = (s, .error ⟨fault, path.text⟩) := by
  have hmake : s.makeDirectory path = (s, .error ⟨fault, path.text⟩) := by
    rw [makeDirectory, find_of_unaskable s h]
  have hnot : fault ≠ .notFound := by
    rintro rfl
    exact absurd (isUnaskable_of_unaskable? h) (by decide)
  have hpath : path = ⟨path.root, path.names.reverse.reverse⟩ := by rw [List.reverse_reverse]
  unfold makeDirectories
  rcases hnames : path.names.reverse with _ | ⟨name, parents⟩
  · rw [hnames] at hpath
    rw [makeWithParents, ← List.reverse_nil, ← hpath, hmake]
  · rw [hnames] at hpath
    rw [makeWithParents, ← hpath, hmake]
    split
    next heq =>
      cases heq
      exact absurd rfl hnot
    next => rfl

/-- Nothing was refused without asking the system. -/
def WasAsked (result : Except StorageError Unit) : Prop :=
  ∀ e, result = .error e → e.fault.isUnaskable = false

theorem write_wasAsked (s : Storage) {path : Path} (h : path.IsAskable) (content : ByteArray) :
    WasAsked (s.write path content).2 := by
  unfold write
  split
  next fault hfind =>
    rintro _ ⟨⟩
    exact s.find_not_unaskable h hfind
  next =>
    rintro _ ⟨⟩
    rfl
  next => nofun

theorem makeDirectory_wasAsked (s : Storage) {path : Path} (h : path.IsAskable) :
    WasAsked (s.makeDirectory path).2 := by
  unfold makeDirectory
  split
  next fault hfind =>
    rintro _ ⟨⟩
    exact s.find_not_unaskable h hfind
  next => nofun
  next =>
    rintro _ ⟨⟩
    rfl
  next => nofun

theorem makeWithParents_wasAsked (s : Storage) {root : Text} {names : List Text}
    (h : (⟨root, names.reverse⟩ : Path).IsAskable) : WasAsked (s.makeWithParents root names).2 := by
  induction names with
  | nil => exact makeDirectory_wasAsked s h
  | cons name parents ih =>
    have hparents : (⟨root, parents.reverse⟩ : Path).IsAskable := by
      rw [List.reverse_cons] at h
      exact ((Path.isAskable_child ⟨root, parents.reverse⟩ name).mp h).1
    rw [makeWithParents]
    split
    next =>
      split
      next hresult => exact hresult ▸ ih hparents
      next s' _ _ => exact makeDirectory_wasAsked s' h
    next => exact makeDirectory_wasAsked s h

theorem makeDirectories_wasAsked (s : Storage) {path : Path} (h : path.IsAskable) :
    WasAsked (s.makeDirectories path).2 := by
  apply makeWithParents_wasAsked
  rwa [List.reverse_reverse]

end Storage

end PipelineBoard
