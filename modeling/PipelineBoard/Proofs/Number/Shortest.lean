-- The text of a finite number reads back as the number: the digits that are found
-- for it do, and so do the digits where the notation puts them.
import PipelineBoard.Proofs.Number.Rounding
import PipelineBoard.Proofs.Text.Digit

namespace PipelineBoard.Decimal

open Binary64 Text

/-! ## The digits that are found -/

/-- A neighbour is given only if it reads back. -/
theorem placeOf_of_neighbour? {place count : Nat} {found : Nat × Int}
    (h : neighbour? place count = some found) : placeOf found.1 found.2 = place := by
  unfold neighbour? at h
  dsimp only at h
  split_ifs at h with hboth hnearer hlow hhigh
  · rw [Bool.and_eq_true, beq_iff_eq, beq_iff_eq] at hboth
    cases h
    exact hboth.1
  · rw [Bool.and_eq_true, beq_iff_eq, beq_iff_eq] at hboth
    cases h
    exact hboth.2
  · cases h
    exact beq_iff_eq.mp hlow
  · cases h
    exact beq_iff_eq.mp hhigh

theorem placeOf_shortest {place : Nat} (h : place < infinityPlace) :
    placeOf (shortest place).1 (shortest place).2 = place := by
  unfold shortest
  rcases hfound : (List.range 17).findSome? (fun i => neighbour? place (i + 1)) with _ | found
  · rw [Option.getD_none]
    exact placeOf_exact h rfl
  · obtain ⟨i, _, hi⟩ := List.exists_of_findSome?_eq_some hfound
    exact placeOf_of_neighbour? hi

/-- Only zero is written with the digit zero alone. -/
theorem shortest_ne_zero {place : Nat} (h : place < infinityPlace) (hpos : place ≠ 0) :
    (shortest place).1 ≠ 0 := by
  intro hzero
  apply hpos
  rw [← placeOf_shortest h, hzero, placeOf_zero]

/-! ## The digits that are written -/

theorem exists_digitsOf_eq (n : Nat) :
    ∃ zeros, digitsOf n = significant n ++ List.replicate zeros (.scalar '0') := by
  obtain ⟨tail, hcut, htail⟩ := exists_eq_dropTail_append (· == .scalar '0') (digitsOf n)
  have hzeros : tail = List.replicate tail.length (.scalar '0') :=
    List.eq_replicate_of_mem fun c hc => beq_iff_eq.mp (htail c hc)
  refine ⟨tail.length, ?_⟩
  rw [← hzeros]
  exact hcut

theorem isDigit_of_mem_significant {n : Nat} : ∀ c ∈ significant n, isDigit c = true := by
  obtain ⟨zeros, hcut⟩ := exists_digitsOf_eq n
  intro c hc
  apply isDigit_of_mem_digitsOf (n := n)
  rw [hcut]
  exact List.mem_append_left _ hc

theorem significant_ne_nil {n : Nat} (h : n ≠ 0) : significant n ≠ [] := by
  obtain ⟨zeros, hcut⟩ := exists_digitsOf_eq n
  intro hnil
  have hvalue := decimalValue_digitsOf n
  have hzeros := decimalValue_append_zeros [] zeros
  rw [hcut, hnil, hzeros] at hvalue
  apply h
  rw [← hvalue]
  exact Nat.zero_mul _

theorem head?_significant {n : Nat} (h : n ≠ 0) : (significant n).head? ≠ some (.scalar '0') := by
  obtain ⟨zeros, hcut⟩ := exists_digitsOf_eq n
  have hhead := head?_digitsOf h
  rwa [hcut, List.head?_append_of_ne_nil _ (significant_ne_nil h)] at hhead

/-- The digits without the zeros at their end stand for the same number, if the
first of them keeps its power. -/
theorem placeOf_significant (n : Nat) (exponent : Int) :
    placeOf (decimalValue (significant n)) (exponent + width n - (significant n).length) =
      placeOf n exponent := by
  obtain ⟨zeros, hcut⟩ := exists_digitsOf_eq n
  have hvalue : decimalValue (significant n) * 10 ^ zeros = n := by
    rw [← decimalValue_append_zeros, ← hcut, decimalValue_digitsOf]
  have hwidth : width n = (significant n).length + zeros := by
    rw [width, ← length_digitsOf, hcut, List.length_append, List.length_replicate]
  have hexponent : exponent + width n - (significant n).length = exponent + zeros := by
    rw [hwidth]
    omega
  rw [hexponent, ← placeOf_mul_pow, hvalue]

/-! ## Numerals -/

/-- Digits without a zero at their front. -/
structure Leads (digits : List Point) : Prop where
  areDigits : ∀ c ∈ digits, isDigit c = true
  ne_nil : digits ≠ []
  nonzero : digits.head? ≠ some (.scalar '0')

theorem leads_significant {n : Nat} (h : n ≠ 0) : Leads (significant n) :=
  ⟨isDigit_of_mem_significant, significant_ne_nil h, head?_significant h⟩

/-- The first digits of a run without a zero at its front have none either. -/
theorem Leads.take {digits : List Point} (h : Leads digits) (count : Nat) :
    Leads (digits.take (count + 1)) := by
  obtain ⟨c, rest, rfl⟩ := List.exists_cons_of_ne_nil h.ne_nil
  refine ⟨?_, by simp, ?_⟩
  · intro d hd
    exact h.areDigits d (List.mem_of_mem_take hd)
  · exact h.nonzero

theorem Leads.append_zeros {digits : List Point} (h : Leads digits) (count : Nat) :
    Leads (digits ++ List.replicate count (.scalar '0')) := by
  refine ⟨?_, by simp [h.ne_nil], ?_⟩
  · intro c hc
    rcases List.mem_append.mp hc with hc | hc
    · exact h.areDigits c hc
    · exact isDigit_of_mem_zeros c hc
  · rw [List.head?_append_of_ne_nil _ h.ne_nil]
    exact h.nonzero

/-- Digits as they stand before a point: a zero alone, or none at the front. -/
def IsWhole (whole : List Point) : Prop := whole = [.scalar '0'] ∨ Leads whole

theorem IsWhole.ne_nil {whole : List Point} (h : IsWhole whole) : whole ≠ [] := by
  rcases h with rfl | h
  · simp
  · exact h.ne_nil

theorem IsWhole.areDigits {whole : List Point} (h : IsWhole whole) :
    ∀ c ∈ whole, isDigit c = true := by
  rcases h with rfl | h
  · simp [isDigit]
  · exact h.areDigits

theorem isWhole_digitsOf (n : Nat) : IsWhole (digitsOf n) := by
  by_cases h : n = 0
  · exact Or.inl (by rw [h]; rfl)
  · exact Or.inr ⟨isDigit_of_mem_digitsOf, digitsOf_ne_nil, head?_digitsOf h⟩

/-- The parts of a numeral: its digits before and after the point, and its power
of ten if it has one. -/
structure Parts where
  whole : List Point
  fraction : List Point
  power : Option Int

namespace Parts

def text (parts : Parts) : List Point :=
  parts.whole ++ (if parts.fraction.isEmpty then [] else .scalar '.' :: parts.fraction) ++
    parts.power.elim [] fun e => .scalar 'e' :: exponentText e

/-- The place of the magnitude that the parts write. -/
def place (parts : Parts) : Nat :=
  placeOf (decimalValue (parts.whole ++ parts.fraction))
    (parts.power.getD 0 - parts.fraction.length)

/-- The parts of a real number: no zero in front of other digits, and a point or
a power of ten. -/
structure AreReal (parts : Parts) : Prop where
  whole : IsWhole parts.whole
  fraction : ∀ c ∈ parts.fraction, isDigit c = true
  marked : parts.fraction = [] → parts.power ≠ none

end Parts

/-- The text is that of a real number at a place. -/
def Writes (text : List Point) (place : Nat) : Prop :=
  ∃ parts : Parts, parts.AreReal ∧ text = parts.text ∧ parts.place = place

/-! ## Where the point goes -/

section Layout

variable {digits : List Point} (leads : Leads digits) {e : Int}

include leads

/-- Below one, zeros stand between the point and the digits. -/
theorem writes_below_one (h : e < 0) :
    Writes (.scalar '0' :: .scalar '.' :: List.replicate (-e - 1).toNat (.scalar '0') ++ digits)
      (placeOf (decimalValue digits) (e + 1 - digits.length)) := by
  refine ⟨⟨[.scalar '0'], List.replicate (-e - 1).toNat (.scalar '0') ++ digits, none⟩, ⟨Or.inl rfl, ?_, ?_⟩, ?_, ?_⟩
  · intro c hc
    rcases List.mem_append.mp hc with hc | hc
    · exact isDigit_of_mem_zeros c hc
    · exact leads.areDigits c hc
  · intro hnil
    exact absurd (List.append_eq_nil_iff.mp hnil).2 leads.ne_nil
  · simp [Parts.text, leads.ne_nil]
  · have hvalue : decimalValue ([Point.scalar '0'] ++ (List.replicate (-e - 1).toNat (.scalar '0') ++ digits)) =
        decimalValue digits := decimalValue_zeros_append ((-e - 1).toNat + 1) digits
    have hexponent : (0 : Int) - (List.replicate (-e - 1).toNat (Point.scalar '0') ++ digits).length =
        e + 1 - digits.length := by
      rw [List.length_append, List.length_replicate]
      omega
    unfold Parts.place
    rw [hvalue]
    exact congrArg _ hexponent

/-- The point is among the digits. -/
theorem writes_among (h : 0 ≤ e) (hlong : e.toNat + 1 < digits.length) :
    Writes (digits.take (e.toNat + 1) ++ .scalar '.' :: digits.drop (e.toNat + 1))
      (placeOf (decimalValue digits) (e + 1 - digits.length)) := by
  have hdrop : digits.drop (e.toNat + 1) ≠ [] := by
    rw [Ne, List.drop_eq_nil_iff]
    omega
  refine ⟨⟨digits.take (e.toNat + 1), digits.drop (e.toNat + 1), none⟩,
    ⟨Or.inr (leads.take _), ?_, ?_⟩, ?_, ?_⟩
  · intro c hc
    exact leads.areDigits c (List.mem_of_mem_drop hc)
  · intro hnil
    exact absurd hnil hdrop
  · simp [Parts.text, List.isEmpty_eq_false_iff.mpr hdrop]
  · have hexponent : (0 : Int) - (digits.drop (e.toNat + 1)).length = e + 1 - digits.length := by
      rw [List.length_drop]
      omega
    unfold Parts.place
    dsimp only
    rw [List.take_append_drop]
    exact congrArg _ hexponent

/-- Zeros take the digits up to the point. -/
theorem writes_above (h : 0 ≤ e) (hshort : digits.length ≤ e.toNat + 1) :
    Writes (digits ++ List.replicate (e.toNat + 1 - digits.length) (.scalar '0') ++ [.scalar '.', .scalar '0'])
      (placeOf (decimalValue digits) (e + 1 - digits.length)) := by
  refine ⟨⟨digits ++ List.replicate (e.toNat + 1 - digits.length) (.scalar '0'), [.scalar '0'], none⟩,
    ⟨Or.inr (leads.append_zeros _), ?_, ?_⟩, ?_, ?_⟩
  · simp [isDigit]
  · simp
  · simp [Parts.text]
  · have hvalue : decimalValue (digits ++ List.replicate (e.toNat + 1 - digits.length) (.scalar '0') ++ [.scalar '0']) =
        decimalValue digits * 10 ^ (e.toNat + 1 - digits.length + 1) := by
      rw [← decimalValue_append_zeros, List.append_assoc, List.replicate_succ']
    have hexponent : (0 : Int) - (1 : Nat) + (e.toNat + 1 - digits.length + 1 : Nat) =
        e + 1 - digits.length := by omega
    unfold Parts.place
    rw [hvalue, placeOf_mul_pow]
    exact congrArg _ hexponent

/-- One digit stands before the point, and the power says the rest. -/
theorem writes_power :
    Writes (digits.take 1 ++ (if (digits.drop 1).isEmpty then [] else .scalar '.' :: digits.drop 1) ++
        .scalar 'e' :: exponentText e)
      (placeOf (decimalValue digits) (e + 1 - digits.length)) := by
  have hlength : 0 < digits.length := List.length_pos_iff.mpr leads.ne_nil
  refine ⟨⟨digits.take 1, digits.drop 1, some e⟩, ⟨Or.inr (leads.take 0), ?_, ?_⟩, rfl, ?_⟩
  · intro c hc
    exact leads.areDigits c (List.mem_of_mem_drop hc)
  · simp
  · have hexponent : e - (digits.drop 1).length = e + 1 - digits.length := by
      rw [List.length_drop]
      omega
    unfold Parts.place
    dsimp only
    rw [List.take_append_drop]
    exact congrArg _ hexponent

/-- However a notation lays digits out, the first of them stands for the power
that was asked. -/
theorem writes_layout (style : Notation) :
    Writes (layout style digits e) (placeOf (decimalValue digits) (e + 1 - digits.length)) := by
  unfold layout
  by_cases hplain : (style.leastPlain ≤ e && e ≤ style.mostPlain) = true
  · rw [if_pos hplain]
    by_cases hnegative : e < 0
    · rw [if_pos hnegative]
      exact writes_below_one leads hnegative
    · rw [if_neg hnegative]
      dsimp only
      by_cases hlong : e.toNat + 1 < digits.length
      · have hzeros : e.toNat + 1 - digits.length = 0 := by omega
        have hdrop : (digits.drop (e.toNat + 1)).isEmpty = false := by
          rw [List.isEmpty_eq_false_iff, Ne, List.drop_eq_nil_iff]
          omega
        rw [hzeros, hdrop, List.replicate_zero, List.append_nil]
        exact writes_among leads (by omega) hlong
      · have hdrop : digits.drop (e.toNat + 1) = [] := List.drop_eq_nil_of_le (by omega)
        rw [hdrop, List.take_of_length_le (by omega)]
        exact writes_above leads (by omega) (by omega)
  · rw [if_neg hplain]
    exact writes_power leads

end Layout

/-- The text of a finite magnitude is that of a real number at its place. -/
theorem writes_magnitudeText (style : Notation) {place : Nat} (h : place < infinityPlace) :
    Writes (magnitudeText style place) place := by
  unfold magnitudeText
  by_cases hzero : place = 0
  · rw [if_pos hzero, hzero]
    refine ⟨⟨[.scalar '0'], [.scalar '0'], none⟩, ⟨Or.inl rfl, ?_, ?_⟩, rfl, placeOf_zero _⟩
    · simp [isDigit]
    · simp
  · have hshortest := placeOf_shortest h
    have hne := shortest_ne_zero h hzero
    rw [if_neg hzero, if_neg (Nat.ne_of_lt h)]
    generalize shortest place = found at hshortest hne
    obtain ⟨digits, exponent⟩ := found
    have hwrites := writes_layout (leads_significant hne) (e := exponent + width digits - 1) style
    have hexponent : exponent + width digits - 1 + 1 - (significant digits).length =
        exponent + width digits - (significant digits).length := by omega
    rw [hexponent, placeOf_significant, hshortest] at hwrites
    exact hwrites

end PipelineBoard.Decimal
