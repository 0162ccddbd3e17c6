-- Texts with a form in UTF-8: they are the texts of strings, and the parts of one are
-- such texts too.
import PipelineBoard.Text.Basic

namespace PipelineBoard.Text

/-! ## Code points -/

theorem isEncodable_iff_forall {t : Text} :
    t.isEncodable = true ↔ ∀ p ∈ t.toList, ∃ c : Char, p = .scalar c := by
  have hpoint : ∀ p : Point, p.char?.isSome = true ↔ ∃ c : Char, p = .scalar c := by
    intro p
    cases p <;> simp [Point.char?]
  simp only [isEncodable, List.all_eq_true, hpoint]

@[simp] theorem isEncodable_append {s t : Text} :
    (s ++ t).isEncodable = (s.isEncodable && t.isEncodable) := List.all_append

/-- Between texts on a list stands what the text between them has. -/
theorem forall_mem_intercalate {q : Point → Prop} {between : Text}
    (hbetween : ∀ p ∈ between.toList, q p) (texts : List Text) :
    (∀ p ∈ (between.intercalate texts).toList, q p) ↔ ∀ t ∈ texts, ∀ p ∈ t.toList, q p := by
  induction texts with
  | nil => simp
  | cons t rest ih =>
    cases rest with
    | nil => simp
    | cons next others =>
      rw [intercalate_cons_cons, List.forall_mem_cons, ← ih]
      rw [toList_append, toList_append, List.forall_mem_append, List.forall_mem_append,
        and_iff_left hbetween]

/-! ## Strings -/

@[simp] theorem isEncodable_ofString (s : String) : (s : Text).isEncodable = true :=
  isEncodable_iff_forall.mpr fun p hp => by
    obtain ⟨c, _, rfl⟩ := List.mem_map.mp hp
    exact ⟨c, rfl⟩

@[simp] theorem string?_ofString (s : String) : (s : Text).string? = some s := by
  have hchars : (s.toList.map Point.scalar).filterMap Point.char? = s.toList := by
    rw [List.filterMap_map]
    exact List.filterMap_some
  rw [string?, if_pos (isEncodable_ofString s), toList_ofString, hchars, String.ofList_toList]

/-- The texts with a form in UTF-8 are those of strings. -/
theorem isEncodable_iff {t : Text} : t.isEncodable = true ↔ ∃ s : String, t = s := by
  refine ⟨fun h => ?_, ?_⟩
  · refine ⟨String.ofList (t.toList.filterMap Point.char?), ?_⟩
    obtain ⟨ps⟩ := t
    rw [isEncodable_iff_forall] at h
    rw [← toList_inj, toList_ofString, String.toList_ofList]
    simp only at h ⊢
    induction ps with
    | nil => rfl
    | cons p ps ih =>
      obtain ⟨⟨c, rfl⟩, hrest⟩ := List.forall_mem_cons.mp h
      exact congrArg _ (ih hrest)
  · rintro ⟨s, rfl⟩
    exact isEncodable_ofString s

@[simp] theorem utf8?_ofString (s : String) : (s : Text).utf8? = some s.toUTF8 := by
  rw [utf8?, string?_ofString, Option.map_some]

theorem utf8?_of_not_isEncodable {t : Text} (h : t.isEncodable = false) : t.utf8? = none := by
  rw [utf8?, string?, h]
  rfl

end PipelineBoard.Text
