-- Decimal digits: the number that a run of them writes, and the digits of a number.
import Mathlib.Data.List.Basic
import Mathlib.Data.List.TakeWhile
import Mathlib.Tactic.Ring
import PipelineBoard.Text.Blank
import PipelineBoard.Text.Digit

namespace PipelineBoard.Text

/-! ## Digits -/

@[simp] theorem isDigit_scalar (c : Char) : isDigit c = c.isDigit := rfl

theorem isDigit_of_mem_digitsOf {n : Nat} : ∀ c ∈ digitsOf n, isDigit c = true := by
  intro c hc
  obtain ⟨d, hd, rfl⟩ := List.mem_map.mp hc
  rw [isDigit_scalar]
  exact Nat.isDigit_of_mem_toDigits (by decide) (by decide) hd

theorem isDigit_of_mem_zeros {count : Nat} :
    ∀ c ∈ List.replicate count (.scalar '0'), isDigit c = true := by
  intro c hc
  rw [List.eq_of_mem_replicate hc]
  rfl

/-! ## The number of a run -/

theorem foldl_digitValue (cs : List Point) (value : Nat) :
    cs.foldl (fun value c => 10 * value + digitValue c) value =
      value * 10 ^ cs.length + decimalValue cs := by
  unfold decimalValue
  induction cs generalizing value with
  | nil => simp
  | cons c cs ih =>
    rw [List.foldl_cons, List.foldl_cons, ih, ih (10 * 0 + _), List.length_cons]
    ring

theorem decimalValue_append (cs ds : List Point) :
    decimalValue (cs ++ ds) = decimalValue cs * 10 ^ ds.length + decimalValue ds := by
  rw [decimalValue, List.foldl_append, foldl_digitValue]
  rfl

theorem decimalValue_zeros (count : Nat) : decimalValue (List.replicate count (.scalar '0')) = 0 := by
  induction count with
  | zero => rfl
  | succ count ih =>
    rw [List.replicate_succ', decimalValue_append, ih]
    rfl

/-- Zeros at the front write nothing. -/
theorem decimalValue_zeros_append (count : Nat) (cs : List Point) :
    decimalValue (List.replicate count (.scalar '0') ++ cs) = decimalValue cs := by
  rw [decimalValue_append, decimalValue_zeros, Nat.zero_mul, Nat.zero_add]

/-- Zeros at the end write powers of ten. -/
theorem decimalValue_append_zeros (cs : List Point) (count : Nat) :
    decimalValue (cs ++ List.replicate count (.scalar '0')) = decimalValue cs * 10 ^ count := by
  rw [decimalValue_append, decimalValue_zeros, List.length_replicate, Nat.add_zero]

@[simp] theorem decimalValue_digitsOf (n : Nat) : decimalValue (digitsOf n) = n := by
  rw [decimalValue, digitsOf, List.foldl_map]
  exact Nat.ofDigitChars_ten_toDigits

/-! ## The digits of a number -/

theorem digitsOf_ne_nil {n : Nat} : digitsOf n ≠ [] := by
  rw [digitsOf, Ne, List.map_eq_nil_iff]
  exact Nat.toDigits_ne_nil

@[simp] theorem length_digitsOf (n : Nat) : (digitsOf n).length = (Nat.toDigits 10 n).length :=
  List.length_map _

theorem toList_repr (n : Nat) : Text.toList n.repr = digitsOf n := by
  rw [toList_ofString, Nat.toList_repr]
  rfl

/-- Only zero starts with a zero. -/
theorem head?_digitsOf {n : Nat} (h : n ≠ 0) : (digitsOf n).head? ≠ some (.scalar '0') := by
  rw [digitsOf, List.head?_map]
  induction n using Nat.strongRecOn with
  | _ n ih =>
    rw [Nat.toDigits_eq_if (by decide)]
    by_cases hlt : n < 10
    · rw [if_pos hlt]
      simpa using h
    · rw [if_neg hlt, List.head?_append_of_ne_nil _ Nat.toDigits_ne_nil]
      exact ih (n / 10) (by omega) (by omega)

/-- A text is what stays of it without the characters of a class at its end, and
these characters. -/
theorem exists_eq_dropTail_append (p : Point → Bool) (cs : List Point) :
    ∃ tail, cs = dropTail p cs ++ tail ∧ ∀ c ∈ tail, p c = true := by
  refine ⟨(cs.reverse.takeWhile p).reverse, ?_, ?_⟩
  · unfold dropTail
    rw [← List.reverse_append, List.takeWhile_append_dropWhile, List.reverse_reverse]
  · intro c hc
    rw [List.mem_reverse] at hc
    exact List.mem_takeWhile_imp hc

end PipelineBoard.Text
