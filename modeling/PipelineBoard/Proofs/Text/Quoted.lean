-- What an escape between double quotes may look like, apart from who reads it:
-- a short one, a number of four hexadecimal digits, or the character itself.
import Mathlib.Tactic.SplitIfs
import Mathlib.Tactic.Ring
import PipelineBoard.Proofs.Json.Printer

namespace PipelineBoard.Text

/-! ## Hexadecimal numbers -/

/-- The number that hexadecimal digits write. -/
def hexNumber? (cs : List Point) : Option Nat :=
  cs.foldlM (fun value c => (hexValue? c).map (16 * value + ·)) 0

theorem hexValue?_digitChar : ∀ n < 16, hexValue? (Nat.digitChar n) = some n := by decide

theorem length_hexDigits (count n : Nat) : (hexDigits count n).length = count := by
  induction count generalizing n with
  | zero => rfl
  | succ count ih => simp [hexDigits, ih]

/-- The last digits of a number write what is left of it by their power of sixteen. -/
theorem hexNumber?_hexDigits (count n : Nat) :
    hexNumber? (hexDigits count n) = some (n % 16 ^ count) := by
  induction count generalizing n with
  | zero => simp [hexDigits, hexNumber?, Nat.mod_one]
  | succ count ih =>
    have hlast : hexValue? (Nat.digitChar (n % 16)) = some (n % 16) :=
      hexValue?_digitChar _ (Nat.mod_lt n (by decide))
    have hsplit : 16 * (n / 16 % 16 ^ count) + n % 16 = n % 16 ^ (count + 1) := by
      rw [pow_succ', Nat.mod_mul]
      omega
    have hfront := ih (n / 16)
    unfold hexNumber? at hfront ⊢
    rw [hexDigits, List.foldlM_append, hfront]
    simp [hlast, hsplit]

/-- So many digits as a number needs write the number. -/
theorem hexNumber?_hexDigits_of_lt {count n : Nat} (h : n < 16 ^ count) :
    hexNumber? (hexDigits count n) = some n := by
  rw [hexNumber?_hexDigits, Nat.mod_eq_of_lt h]

/-- The digits of four are there one by one. -/
theorem exists_hexDigits_four (n : Nat) : ∃ a b c d, hexDigits 4 n = [a, b, c, d] :=
  ⟨_, _, _, _, rfl⟩

/-! ## Escapes -/

/-- The letters of the short escapes between double quotes, with what each
stands for. -/
def shortEscapes : List (Point × Point) := [
  ('"', '"'), ('\\', '\\'), ('n', '\n'), ('r', '\r'), ('t', '\t'), ('b', '\x08'), ('f', '\x0c')]

/-- A character that stands as it is between double quotes. -/
structure StandsAsItIs (c : Point) : Prop where
  notQuote : c ≠ '"'
  notBackslash : c ≠ '\\'
  notControl : 32 ≤ c.toNat

/-- Between double quotes a character is written in one of three ways. -/
inductive EscapedAs (c : Point) : List Point → Prop
  | short {letter : Point} (h : (letter, c) ∈ shortEscapes) : EscapedAs c ['\\', letter]
  | number (h : c.toNat < 32) : EscapedAs c (.scalar '\\' :: .scalar 'u' :: hexDigits 4 c.toNat)
  | itself (h : StandsAsItIs c) : EscapedAs c [c]

theorem escapedAs_escapeDouble (c : Point) : EscapedAs c (escapeDouble c) := by
  unfold escapeDouble
  split_ifs with hquote hback hfeed hreturn htab hb hf hcontrol
  · exact .short (by simp [hquote, shortEscapes])
  · exact .short (by simp [hback, shortEscapes])
  · exact .short (by simp [hfeed, shortEscapes])
  · exact .short (by simp [hreturn, shortEscapes])
  · exact .short (by simp [htab, shortEscapes])
  · exact .short (by simp [hb, shortEscapes])
  · exact .short (by simp [hf, shortEscapes])
  · exact .number hcontrol
  · exact .itself ⟨hquote, hback, Nat.le_of_not_lt hcontrol⟩

end PipelineBoard.Text
