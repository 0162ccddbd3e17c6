-- Printed values with a form in UTF-8: a value has one in print if all its texts do.
import PipelineBoard.Proofs.Json.Fields
import PipelineBoard.Proofs.Json.Printer
import PipelineBoard.Proofs.Text.Encodable

namespace PipelineBoard

/-! ## Characters -/

namespace Text

/-- The code point is a character. -/
def isCharacter (p : Point) : Bool := p.char?.isSome

theorem isEncodable_iff_isCharacter {t : Text} :
    t.isEncodable = true ↔ ∀ p ∈ t.toList, isCharacter p = true := List.all_eq_true

/-- A class with no half of a pair has texts with a form in UTF-8 only. -/
theorem isEncodable_of_class {q : Point → Bool} (hlone : ∀ half, q (.lone half) = false) {t : Text}
    (h : ∀ p ∈ t.toList, q p = true) : t.isEncodable = true := by
  refine isEncodable_iff_isCharacter.mpr fun p hp => ?_
  cases p with
  | scalar c => rfl
  | lone half =>
    have hnot := h _ hp
    rw [hlone half] at hnot
    cases hnot

theorem isDigit_lone (half : Fin 0x800) : isDigit (.lone half) = false := by
  have hhigh : ¬ 0xd800 + half.val ≤ 57 := by omega
  simp [isDigit, Point.toNat, hhigh]

theorem isNumeral_lone (half : Fin 0x800) : isNumeral (.lone half) = false := by
  simp [isNumeral, isDigit_lone]

theorem isCharacter_of_isNumeral {p : Point} (h : isNumeral p = true) : isCharacter p = true := by
  cases p with
  | scalar c => rfl
  | lone half => cases (isNumeral_lone half).symm.trans h

theorem isCharacter_of_mem_escapeDouble {d : Point} (hd : isCharacter d = true) :
    ∀ p ∈ escapeDouble d, isCharacter p = true := by
  unfold escapeDouble
  split_ifs
  all_goals try exact List.all_eq_true.mp rfl
  exact List.forall_mem_singleton.mpr hd

theorem isCharacter_of_mem_doubleQuoted {cs : List Point} (h : ∀ p ∈ cs, isCharacter p = true) :
    ∀ p ∈ doubleQuoted cs, isCharacter p = true := by
  intro p hp
  simp only [doubleQuoted, List.cons_append, List.mem_cons, List.mem_append, List.mem_flatMap,
    List.not_mem_nil, or_false] at hp
  rcases hp with rfl | ⟨d, hd, hp⟩ | rfl
  · rfl
  · exact isCharacter_of_mem_escapeDouble (h d hd) p hp
  · rfl

theorem isEncodable_doubleQuoted {t : Text} (h : t.isEncodable = true) :
    (Text.ofList (doubleQuoted t.toList)).isEncodable = true :=
  isEncodable_iff_isCharacter.mpr
    (isCharacter_of_mem_doubleQuoted (isEncodable_iff_isCharacter.mp h))

end Text

namespace Json

open Text

/-! ## Several values -/

theorem allFieldsEncodable_iff {fields : Fields} : allFieldsEncodable fields = true ↔
    ∀ field ∈ fields, field.1.isEncodable = true ∧ field.2.isEncodable = true := by
  induction fields with
  | nil => simp [allFieldsEncodable]
  | cons field rest ih => simp [allFieldsEncodable, ih]

theorem isEncodable_of_get? {fields : Fields} {key : Text} {value : Json}
    (h : allFieldsEncodable fields = true) (hget : fields.get? key = some value) :
    value.isEncodable = true := by
  obtain ⟨before, after, rfl, _⟩ := List.lookup_eq_some_iff.mp hget
  exact (allFieldsEncodable_iff.mp h (key, value) (List.mem_append_right _ List.mem_cons_self)).2

theorem allFieldsEncodable_overriddenBy {fields others : Fields}
    (h : allFieldsEncodable fields = true) (hothers : allFieldsEncodable others = true) :
    allFieldsEncodable (fields.overriddenBy others) = true := by
  rw [allFieldsEncodable_iff] at h hothers ⊢
  exact Fields.forall_mem_overriddenBy h hothers

/-! ## Values over several lines -/

theorem isCharacter_of_mem_newLine (depth : Nat) : ∀ p ∈ newLine depth, isCharacter p = true := by
  intro p hp
  rcases List.mem_cons.mp hp with rfl | hp
  · rfl
  · rw [List.eq_of_mem_replicate hp]
    rfl

mutual

theorem isCharacter_of_mem_render (depth : Nat) : ∀ v : Json, v.isEncodable = true →
    ∀ p ∈ render depth v, isCharacter p = true
  | .null => fun _ => by simpa only [render] using List.all_eq_true.mp rfl
  | .bool true => fun _ => by simpa only [render] using List.all_eq_true.mp rfl
  | .bool false => fun _ => by simpa only [render] using List.all_eq_true.mp rfl
  | .int n => fun _ p hp =>
    isCharacter_of_isNumeral (isNumeral_of_mem_repr n p (by simpa [render] using hp))
  | .real d => fun _ p hp => by
    rw [render] at hp
    exact Decimal.of_mem_text (fun _ => isCharacter_of_isNumeral) .json
      (forall_mem_given rfl) (forall_mem_given rfl) d p hp
  | .string s => fun h p hp => by
    rw [isEncodable] at h
    rw [render] at hp
    exact isCharacter_of_mem_doubleQuoted (isEncodable_iff_isCharacter.mp h) p hp
  | .list items => fun h p hp => by
    have hitems := isCharacter_of_mem_renderItems (depth + 1) items (by rwa [isEncodable] at h)
    have hline := isCharacter_of_mem_newLine depth
    have hopen : isCharacter '[' = true := rfl
    have hclose : isCharacter ']' = true := rfl
    rw [render] at hp
    grind
  | .object fields => fun h p hp => by
    have hfields := isCharacter_of_mem_renderFields (depth + 1) fields (by rwa [isEncodable] at h)
    have hline := isCharacter_of_mem_newLine depth
    have hopen : isCharacter '{' = true := rfl
    have hclose : isCharacter '}' = true := rfl
    rw [render] at hp
    grind

theorem isCharacter_of_mem_renderItems (depth : Nat) : ∀ items : List Json,
    allEncodable items = true → ∀ p ∈ renderItems depth items, isCharacter p = true
  | [] => by simp [renderItems]
  | item :: rest => fun h p hp => by
    rw [allEncodable, Bool.and_eq_true] at h
    have hitem := isCharacter_of_mem_render depth item h.1
    have hrest := isCharacter_of_mem_renderItems depth rest h.2
    have hline := isCharacter_of_mem_newLine depth
    have hcomma : isCharacter ',' = true := rfl
    rw [renderItems] at hp
    grind

theorem isCharacter_of_mem_renderFields (depth : Nat) : ∀ fields : List (Text × Json),
    allFieldsEncodable fields = true → ∀ p ∈ renderFields depth fields, isCharacter p = true
  | [] => by simp [renderFields]
  | (key, value) :: rest => fun h p hp => by
    rw [allFieldsEncodable, Bool.and_eq_true, Bool.and_eq_true] at h
    have hkey := isCharacter_of_mem_doubleQuoted (isEncodable_iff_isCharacter.mp h.1.1)
    have hvalue := isCharacter_of_mem_render depth value h.1.2
    have hrest := isCharacter_of_mem_renderFields depth rest h.2
    have hline := isCharacter_of_mem_newLine depth
    have hcolon : isCharacter ':' = true := rfl
    have hspace : isCharacter ' ' = true := rfl
    have hcomma : isCharacter ',' = true := rfl
    rw [renderFields] at hp
    grind

end

/-- The literal of a number has a form in UTF-8. -/
theorem isEncodable_literal {v : Json} (h : v.isNumber = true) : v.literal.isEncodable = true :=
  isEncodable_of_class isNumeral_lone (isNumeral_of_mem_literal h)

end Json

namespace Params

open Text

theorem isEncodable_of_mem_commentLines {params : Fields}
    (h : Json.allFieldsEncodable params = true) :
    ∀ line ∈ commentLines params, line.isEncodable = true := by
  have hrender := Json.isCharacter_of_mem_render 0 (.object params) (by rwa [Json.isEncodable])
  have hpiece : ∀ {front : Text} {piece : List Point}, front.isEncodable = true →
      piece ∈ cutAtFeeds (Json.render 0 (.object params)) →
      (front ++ Text.ofList piece).isEncodable = true := by
    intro front piece hfront hpiece
    rw [isEncodable_append, hfront, Bool.true_and, isEncodable_iff_isCharacter]
    exact fun p hp => hrender p (of_mem_cutAtFeeds hpiece p hp).2
  unfold commentLines
  split
  · simp
  · rename_i first rest hcut
    rw [hcut] at hpiece
    refine List.forall_mem_cons.mpr ⟨hpiece (isEncodable_ofString _) List.mem_cons_self, ?_⟩
    intro line hline
    obtain ⟨piece, hmem, rfl⟩ := List.mem_map.mp hline
    exact hpiece (isEncodable_ofString _) (List.mem_cons_of_mem _ hmem)

end Params

end PipelineBoard
