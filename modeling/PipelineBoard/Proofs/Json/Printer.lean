-- The characters of printed values: none is a control, but for the line feeds
-- between the lines of a value over several lines.
import Mathlib.Tactic.SplitIfs
import PipelineBoard.Json.Printer
import PipelineBoard.Proofs.Text.Lines
import PipelineBoard.Script.Params

namespace PipelineBoard

/-! ## Quoted texts -/

namespace Text

/-- No control of ASCII, apart from the last one. -/
def isGraphic (c : Point) : Bool := 32 ≤ c.toNat

/-- A class with the sixteen digits has every digit of a hexadecimal text. -/
theorem of_mem_hexDigits {p : Point → Bool} (h : ∀ n < 16, p (Nat.digitChar n) = true)
    (count n : Nat) : ∀ c ∈ hexDigits count n, p c = true := by
  induction count generalizing n with
  | zero => simp [hexDigits]
  | succ count ih =>
    intro c hc
    rw [hexDigits, List.mem_append, List.mem_singleton] at hc
    rcases hc with hc | rfl
    · exact ih _ c hc
    · exact h _ (Nat.mod_lt n (by decide))

theorem isGraphic_of_mem_hexDigits (count n : Nat) :
    ∀ c ∈ hexDigits count n, isGraphic c = true := of_mem_hexDigits (by decide) count n

theorem isGraphic_of_mem_escapeDouble (d : Point) :
    ∀ c ∈ escapeDouble d, isGraphic c = true := by
  unfold escapeDouble
  split_ifs with _ _ _ _ _ _ _ h
  all_goals try exact List.all_eq_true.mp rfl
  · intro c hc
    simp only [List.mem_cons] at hc
    rcases hc with rfl | rfl | hc
    · decide
    · decide
    · exact isGraphic_of_mem_hexDigits _ _ c hc
  · intro c hc
    rw [List.mem_singleton] at hc
    subst hc
    simpa [isGraphic] using h

theorem isGraphic_of_mem_doubleQuoted (cs : List Point) :
    ∀ c ∈ doubleQuoted cs, isGraphic c = true := by
  intro c hc
  simp only [doubleQuoted, List.cons_append, List.mem_cons, List.mem_append, List.mem_flatMap,
    List.not_mem_nil, or_false] at hc
  rcases hc with rfl | ⟨d, _, hc⟩ | rfl
  · decide
  · exact isGraphic_of_mem_escapeDouble d c hc
  · decide

/-- The characters that numbers are written with. -/
def isNumeral (c : Point) : Bool := isDigit c || c == '.' || c == 'e' || c == '+' || c == '-'

theorem isNumeral_of_isDigit {c : Point} (h : isDigit c = true) : isNumeral c = true := by
  simp [isNumeral, h]

theorem isGraphic_of_isNumeral {c : Point} (h : isNumeral c = true) : isGraphic c = true := by
  simp only [isNumeral, Bool.or_eq_true, beq_iff_eq] at h
  rcases h with (((h | rfl) | rfl) | rfl) | rfl
  · have h48 : 48 ≤ c.toNat := by
      simp only [isDigit, Bool.and_eq_true, decide_eq_true_eq] at h
      exact h.1
    simp only [isGraphic, decide_eq_true_eq]
    omega
  all_goals decide

theorem isNumeral_of_mem_digitsOf (n : Nat) : ∀ c ∈ digitsOf n, isNumeral c = true :=
  fun _ hc => isNumeral_of_isDigit (isDigit_of_mem_digitsOf _ hc)

theorem isNumeral_of_mem_repr (n : Int) : ∀ c ∈ Text.toList n.repr, isNumeral c = true := by
  intro c hc
  rw [Int.repr_eq_if] at hc
  split at hc
  · rw [toList_repr] at hc
    exact isNumeral_of_mem_digitsOf _ c hc
  · rw [ofString_append, Text.toList_append, List.mem_append] at hc
    rcases hc with hc | hc
    · exact forall_mem_given rfl c hc
    · rw [toList_repr] at hc
      exact isNumeral_of_mem_digitsOf _ c hc

theorem isGraphic_of_mem_repr (n : Int) : ∀ c ∈ Text.toList n.repr, isGraphic c = true :=
  fun c hc => isGraphic_of_isNumeral (isNumeral_of_mem_repr n c hc)

end Text

/-! ## Numbers -/

namespace Decimal

open Text

theorem isNumeral_of_mem_exponentText (e : Int) : ∀ c ∈ exponentText e, isNumeral c = true := by
  intro c hc
  simp only [exponentText, List.mem_cons] at hc
  rcases hc with rfl | hc
  · split_ifs <;> decide
  · split_ifs at hc
    · rcases List.mem_cons.mp hc with rfl | hc
      · decide
      · exact isNumeral_of_mem_digitsOf _ c hc
    · exact isNumeral_of_mem_digitsOf _ c hc

theorem isNumeral_of_mem_layout (style : Notation) {digits : List Point}
    (h : ∀ c ∈ digits, isNumeral c = true) (e : Int) :
    ∀ c ∈ layout style digits e, isNumeral c = true := by
  have hzero : isNumeral '0' = true := by decide
  have hpoint : isNumeral '.' = true := by decide
  have htake : ∀ n, ∀ c ∈ digits.take n, isNumeral c = true := fun n c hc =>
    h c (List.mem_of_mem_take hc)
  have hdrop : ∀ n, ∀ c ∈ digits.drop n, isNumeral c = true := fun n c hc =>
    h c (List.mem_of_mem_drop hc)
  have hzeros : ∀ n, ∀ c ∈ List.replicate n (.scalar '0'), isNumeral c = true := fun n c hc => by
    rw [List.eq_of_mem_replicate hc]
    exact hzero
  intro c hc
  unfold layout at hc
  split at hc
  · split at hc
    · simp only [List.cons_append, List.mem_cons, List.mem_append] at hc
      rcases hc with rfl | rfl | hc | hc
      · exact hzero
      · exact hpoint
      · exact hzeros _ c hc
      · exact h c hc
    · simp only [List.mem_append, List.mem_cons] at hc
      rcases hc with (hc | hc) | rfl | hc
      · exact htake _ c hc
      · exact hzeros _ c hc
      · exact hpoint
      · split at hc
        · rw [List.mem_singleton.mp hc]
          exact hzero
        · exact hdrop _ c hc
  · simp only [List.mem_append, List.mem_cons] at hc
    rcases hc with (hc | hc) | rfl | hc
    · exact htake _ c hc
    · split at hc
      · cases hc
      · rcases List.mem_cons.mp hc with rfl | hc
        · exact hpoint
        · exact hdrop _ c hc
    · decide
    · exact isNumeral_of_mem_exponentText e c hc

theorem isNumeral_of_mem_magnitudeText (style : Notation) {place : Nat}
    (hfinite : place ≠ infinityPlace) :
    ∀ c ∈ magnitudeText style place, isNumeral c = true := by
  unfold magnitudeText
  rw [if_neg hfinite]
  split
  · exact List.all_eq_true.mp rfl
  · generalize shortest place = found
    obtain ⟨digits, exponent⟩ := found
    have hdigits : ∀ c ∈ significant digits, isNumeral c = true := fun c hc =>
      isNumeral_of_mem_digitsOf digits c (mem_of_mem_dropTail hc)
    exact isNumeral_of_mem_layout style hdigits _

/-- A finite number is written with the characters of numbers only. -/
theorem isNumeral_of_mem_text (style : Notation) {d : Binary64} (hfinite : d.isFinite = true) :
    ∀ c ∈ text style d, isNumeral c = true := by
  cases d with
  | nan => cases hfinite
  | signed negative place =>
    have hplace : place.val ≠ infinityPlace := by
      have hlt : place.val < infinityPlace := of_decide_eq_true hfinite
      omega
    intro c hc
    simp only [text, List.mem_append] at hc
    rcases hc with hc | hc
    · cases negative
      · simp at hc
      · rw [if_pos rfl, List.mem_singleton] at hc
        subst hc
        decide
    · exact isNumeral_of_mem_magnitudeText style hplace c hc

/-- The text of a number has the characters of numbers, and of the words that its
notation has for the others. -/
theorem of_mem_text {p : Point → Prop} (hnumeral : ∀ c, isNumeral c = true → p c) (style : Notation)
    (hnan : ∀ c ∈ style.nan.toList, p c) (hinfinity : ∀ c ∈ style.infinity.toList, p c)
    (d : Binary64) : ∀ c ∈ text style d, p c := by
  cases d with
  | nan => exact hnan
  | signed negative place =>
    intro c hc
    simp only [text, List.mem_append] at hc
    rcases hc with hc | hc
    · cases negative
      · simp at hc
      · rw [if_pos rfl, List.mem_singleton] at hc
        subst hc
        exact hnumeral _ (by decide)
    · by_cases hfinite : place.val = infinityPlace
      · rw [hfinite, magnitudeText, if_neg (by decide), if_pos rfl] at hc
        exact hinfinity c hc
      · exact hnumeral c (isNumeral_of_mem_magnitudeText style hfinite c hc)

end Decimal

/-! ## Values over several lines -/

namespace Json

open Text

/-- A line feed, or no control. -/
def isPrinted (c : Point) : Bool := c == '\n' || isGraphic c

theorem isPrinted_of_isGraphic {c : Point} (h : isGraphic c = true) : isPrinted c = true := by
  simp [isPrinted, h]

theorem isPrinted_of_mem_newLine (depth : Nat) : ∀ c ∈ newLine depth, isPrinted c = true := by
  intro c hc
  rcases List.mem_cons.mp hc with rfl | hc
  · decide
  · rw [List.eq_of_mem_replicate hc]
    decide

mutual

theorem isPrinted_of_mem_render (depth : Nat) :
    ∀ v : Json, ∀ c ∈ render depth v, isPrinted c = true
  | .null => by simpa only [render] using List.all_eq_true.mp rfl
  | .bool true => by simpa only [render] using List.all_eq_true.mp rfl
  | .bool false => by simpa only [render] using List.all_eq_true.mp rfl
  | .int n => fun c hc => isPrinted_of_isGraphic (isGraphic_of_mem_repr n c (by simpa [render] using hc))
  | .real d => fun c hc => by
    rw [render] at hc
    exact isPrinted_of_isGraphic (Decimal.of_mem_text (fun _ => isGraphic_of_isNumeral) .json
      (forall_mem_given rfl) (forall_mem_given rfl) d c hc)
  | .string s => fun c hc => by
    rw [render] at hc
    exact isPrinted_of_isGraphic (isGraphic_of_mem_doubleQuoted _ c hc)
  | .list items => fun c hc => by
    have hitems := isPrinted_of_mem_renderItems (depth + 1) items
    have hline := isPrinted_of_mem_newLine depth
    have hopen : isPrinted '[' = true := by decide
    have hclose : isPrinted ']' = true := by decide
    rw [render] at hc
    grind
  | .object fields => fun c hc => by
    have hfields := isPrinted_of_mem_renderFields (depth + 1) fields
    have hline := isPrinted_of_mem_newLine depth
    have hopen : isPrinted '{' = true := by decide
    have hclose : isPrinted '}' = true := by decide
    rw [render] at hc
    grind

theorem isPrinted_of_mem_renderItems (depth : Nat) :
    ∀ items : List Json, ∀ c ∈ renderItems depth items, isPrinted c = true
  | [] => by simp [renderItems]
  | item :: rest => fun c hc => by
    have hitem := isPrinted_of_mem_render depth item
    have hrest := isPrinted_of_mem_renderItems depth rest
    have hline := isPrinted_of_mem_newLine depth
    have hcomma : isPrinted ',' = true := by decide
    rw [renderItems] at hc
    grind

theorem isPrinted_of_mem_renderFields (depth : Nat) :
    ∀ fields : List (Text × Json), ∀ c ∈ renderFields depth fields, isPrinted c = true
  | [] => by simp [renderFields]
  | (key, value) :: rest => fun c hc => by
    have hkey := isGraphic_of_mem_doubleQuoted key.toList
    have hvalue := isPrinted_of_mem_render depth value
    have hrest := isPrinted_of_mem_renderFields depth rest
    have hline := isPrinted_of_mem_newLine depth
    have hcolon : isPrinted ':' = true := by decide
    have hspace : isPrinted ' ' = true := by decide
    have hcomma : isPrinted ',' = true := by decide
    have hgraphic := @isPrinted_of_isGraphic
    rw [renderFields] at hc
    grind

end

/-- The literal of a number has the characters of numbers only. -/
theorem isNumeral_of_mem_literal {v : Json} (h : v.isNumber = true) :
    ∀ c ∈ v.literal.toList, isNumeral c = true := by
  cases v with
  | int n =>
    simp only [literal, shownChars, Text.toList_ofList]
    exact isNumeral_of_mem_repr n
  | real d =>
    simp only [literal, shownChars, Text.toList_ofList]
    exact Decimal.isNumeral_of_mem_text .literal h
  | _ => cases h

theorem isGraphic_of_mem_literal {v : Json} (h : v.isNumber = true) :
    ∀ c ∈ v.literal.toList, isGraphic c = true :=
  fun c hc => isGraphic_of_isNumeral (isNumeral_of_mem_literal h c hc)

/-- The literal of a number stays on one line. -/
theorem onOneLine_literal_of_isNumber {v : Json} (h : v.isNumber = true) : OnOneLine v.literal :=
  onOneLine_of_class (by decide) (by decide) (isGraphic_of_mem_literal h)

end Json

/-! ## Params as a comment -/

namespace Params

open Text

theorem isGraphic_of_mem_commentLines (params : Fields) :
    ∀ line ∈ commentLines params, ∀ c ∈ line.toList, isGraphic c = true := by
  have happend : ∀ {start : List Point} {piece : List Point}, start.all isGraphic = true →
      piece ∈ cutAtFeeds (Json.render 0 (.object params)) →
      ∀ c ∈ (Text.ofList start ++ Text.ofList piece).toList, isGraphic c = true := by
    intro start piece hstart hp c hc
    rw [Text.toList_append, List.mem_append, Text.toList_ofList, Text.toList_ofList] at hc
    rcases hc with hc | hc
    · exact List.all_eq_true.mp hstart c hc
    · obtain ⟨hfeed, hmem⟩ := of_mem_cutAtFeeds hp c hc
      have hprinted := Json.isPrinted_of_mem_render 0 (.object params) c hmem
      simpa [Json.isPrinted, hfeed] using hprinted
  unfold commentLines
  split
  · simp
  · rename_i first rest hcut
    rw [hcut] at happend
    intro line hline
    rcases List.mem_cons.mp hline with rfl | hline
    · exact happend rfl List.mem_cons_self
    · obtain ⟨piece, hp, rfl⟩ := List.mem_map.mp hline
      exact happend rfl (List.mem_cons_of_mem _ hp)

theorem not_isCode_of_mem_commentLines (params : Fields) :
    ∀ line ∈ commentLines params, isCode line = false := by
  unfold commentLines
  split
  · simp
  · intro line hline
    rcases List.mem_cons.mp hline with rfl | hline
    · simp [isCode, isIndent]
    · obtain ⟨piece, _, rfl⟩ := List.mem_map.mp hline
      exact isCode_comment _

/-- Every line of the params is a comment on one physical line. -/
theorem comment_of_mem_commentLines (params : Fields) :
    ∀ line ∈ commentLines params, OnOneLine line ∧ isCode line = false := by
  intro line hline
  exact ⟨onOneLine_of_class (by decide) (by decide) (isGraphic_of_mem_commentLines params line hline),
    not_isCode_of_mem_commentLines params line hline⟩

end Params

end PipelineBoard
