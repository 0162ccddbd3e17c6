-- Integers of few enough digits to be written, and the values that have no other.
-- What was read from a text can be written.
import PipelineBoard.Json.Printer
import PipelineBoard.Proofs.Json.Fields
import PipelineBoard.Proofs.Json.LongNumbers
import PipelineBoard.Proofs.Number.Rounding

namespace PipelineBoard

/-! ## Integers -/

namespace Numeral

theorem isShort_iff (n : Int) : isShort n = true ↔ n.natAbs < 10 ^ mostDigits := by
  unfold isShort
  rw [decide_eq_true_iff]
  constructor
  · intro h
    exact (Decimal.lt_pow_width n.natAbs).trans_le (Nat.pow_le_pow_right (by decide) h)
  · intro h
    by_cases hzero : n.natAbs = 0
    · rw [hzero]
      decide
    · have hlt := (Nat.pow_lt_pow_iff_right (by decide)).mp ((Decimal.pow_width_le hzero).trans_lt h)
      omega

/-- The least integer of one digit too many. -/
theorem isShort_pow_ten : isShort (10 ^ mostDigits : Nat) = false := by
  rw [← Bool.not_eq_true, isShort_iff, Int.natAbs_natCast]
  exact Nat.lt_irrefl _

theorem decimalValue_lt {digits : List Point} (h : ∀ c ∈ digits, Text.isDigit c = true) :
    Text.decimalValue digits < 10 ^ digits.length := by
  induction digits using List.reverseRec with
  | nil => simp [Text.decimalValue]
  | append_singleton digits c ih =>
    obtain ⟨hdigits, hc⟩ := List.forall_mem_append.mp h
    have hvalue : Text.digitValue c ≤ 9 := by
      have hdigit := hc c (List.mem_singleton_self c)
      simp only [Text.isDigit, Bool.and_eq_true, decide_eq_true_eq] at hdigit
      have hnine : c.toNat ≤ 57 := hdigit.2
      unfold Text.digitValue
      omega
    have hlast : Text.decimalValue (digits ++ [c]) =
        10 * Text.decimalValue digits + Text.digitValue c := by
      simp [Text.decimalValue]
    have hfront := ih hdigits
    rw [hlast, List.length_append, List.length_singleton, Nat.pow_succ]
    omega

/-- So many digits write an integer that can be written again. -/
theorem isShort_of_digits {digits : List Point} (h : ∀ c ∈ digits, Text.isDigit c = true)
    (hlength : digits.length ≤ mostDigits) {n : Int}
    (hn : n.natAbs = Text.decimalValue digits) : isShort n = true := by
  rw [isShort_iff, hn]
  exact (decimalValue_lt h).trans_le (Nat.pow_le_pow_right (by decide) hlength)

end Numeral

namespace Json

/-! ## Several values -/

theorem allShort_iff {values : List Json} :
    allShort values = true ↔ ∀ value ∈ values, value.isShort = true := by
  induction values with
  | nil => simp [allShort]
  | cons value rest ih => simp [allShort, ih]

theorem allShort_append (values more : List Json) :
    allShort (values ++ more) = (allShort values && allShort more) := by
  induction values with
  | nil => rfl
  | cons value rest ih => simp [allShort, ih, Bool.and_assoc]

theorem allFieldsShort_iff {fields : Fields} :
    allFieldsShort fields = true ↔ ∀ field ∈ fields, field.2.isShort = true := by
  induction fields with
  | nil => simp [allFieldsShort]
  | cons field rest ih => simp [allFieldsShort, ih]

theorem isShort_of_get? {fields : Fields} {key : Text} {value : Json}
    (h : allFieldsShort fields = true) (hget : fields.get? key = some value) :
    value.isShort = true := by
  obtain ⟨before, after, rfl, _⟩ := List.lookup_eq_some_iff.mp hget
  exact allFieldsShort_iff.mp h (key, value) (List.mem_append_right _ List.mem_cons_self)

/-! ## Values that were read -/

/-- A value that was read, if there is one, can be written. -/
def GivesShort (result : Except Stop (Json × Cursor)) : Prop :=
  ∀ value after, result = .ok (value, after) → value.isShort = true

theorem givesShort_error (stop : Stop) : GivesShort (.error stop) := by
  intro value after h
  cases h

theorem givesShort_ok {value : Json} (h : value.isShort = true) (after : Cursor) :
    GivesShort (.ok (value, after)) := by
  intro value after h'
  cases h'
  exact h

theorem givesShort_word? {c : Cursor} {found : Json × Cursor} (h : word? c = some found) :
    GivesShort (.ok found) := by
  have hwords : ∀ entry ∈ words, entry.2.isShort = true := by decide +kernel
  obtain ⟨⟨word, value⟩, hentry, hword⟩ := List.exists_of_findSome?_eq_some h
  simp only [Option.ite_none_right_eq_some, Option.some.injEq] at hword
  obtain ⟨_, rfl⟩ := hword
  exact givesShort_ok (hwords _ hentry) _

/-- An integer is read only if its digits are few enough. -/
theorem givesShort_readNumber (c : Cursor) : GivesShort (readNumber c) := by
  rw [readNumber_eq]
  unfold readWhole readFraction readPower
  generalize (if c.rest.head? == some (.scalar '-') then c.skip 1 else c) = body
  dsimp only
  split
  · exact givesShort_error _
  · split
    · exact givesShort_ok rfl _
    · split
      · exact givesShort_ok rfl _
      · split
        · exact givesShort_error _
        · rename_i hfew
          refine givesShort_ok ?_ _
          rw [isShort]
          apply Numeral.isShort_of_digits isDigit_of_mem_wholeDigits (Nat.le_of_not_lt hfew)
          split <;> simp

mutual

theorem givesShort_readValue (c : Cursor) : ∀ steps, GivesShort (readValue steps c)
  | 0 => givesShort_error _
  | steps + 1 => by
    rw [readValue]
    split
    · rename_i rest _
      rcases readString c.offset [] (c.offset + 1) rest with stop | ⟨s, after⟩
      · exact givesShort_error _
      · exact givesShort_ok rfl _
    · dsimp only
      split
      · exact givesShort_ok rfl _
      · exact givesShort_readFields [] rfl _ steps
    · dsimp only
      split
      · exact givesShort_ok rfl _
      · exact givesShort_readItems [] rfl _ steps
    · split
      · rename_i hword
        exact givesShort_word? hword
      · exact givesShort_readNumber c

theorem givesShort_readItems (done : List Json) (hdone : allShort done = true) (c : Cursor) :
    ∀ steps, GivesShort (readItems steps done c)
  | 0 => givesShort_error _
  | steps + 1 => by
    have hvalue := givesShort_readValue c steps
    rw [readItems]
    split
    · exact givesShort_error _
    · rename_i value next hnext
      have hmore : allShort (value :: done) = true := by
        rw [allShort, hvalue value next hnext, hdone]
        rfl
      dsimp only
      split
      · refine givesShort_ok ?_ _
        rw [isShort, allShort_iff]
        intro item hitem
        exact allShort_iff.mp hmore item (List.mem_reverse.mp hitem)
      · exact givesShort_readItems _ hmore _ steps
      · exact givesShort_error _

theorem givesShort_readFields (done : Fields) (hdone : allFieldsShort done = true) (c : Cursor) :
    ∀ steps, GivesShort (readFields steps done c)
  | 0 => givesShort_error _
  | steps + 1 => by
    rw [readFields]
    split
    · split
      · exact givesShort_error _
      · rename_i key next _
        dsimp only
        split
        · split
          · exact givesShort_error _
          · rename_i value last hlast
            have hvalue := givesShort_readValue _ steps value last hlast
            have hmore : allFieldsShort (done.set key value) = true := by
              rw [allFieldsShort_iff] at hdone ⊢
              exact Fields.forall_mem_set (p := fun field => field.2.isShort = true) hdone hvalue
            split
            · exact givesShort_ok (by rwa [isShort]) _
            · exact givesShort_readFields _ hmore _ steps
            · exact givesShort_error _
        · exact givesShort_error _
    · exact givesShort_error _

end

/-- A value that a text writes can be written. -/
theorem isShort_of_read {text : Text} {value : Json} (h : read text = .ok value) :
    value.isShort = true := by
  unfold read readChars at h
  split at h
  · rename_i hchars
    cases h
    split at hchars
    · cases hchars
    · split at hchars
      · cases hchars
      · rename_i hvalue
        dsimp only at hchars
        split at hchars
        · cases hchars
          exact givesShort_readValue _ _ _ _ hvalue
        · cases hchars
  · cases h
  · cases h

end Json

end PipelineBoard
