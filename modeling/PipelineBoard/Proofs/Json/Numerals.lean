-- Printed numbers read back: integers as integers, and real numbers as real
-- numbers, since these always have a point or a power of ten.
import Mathlib.Tactic.SplitIfs
import PipelineBoard.Json.Reader
import PipelineBoard.Proofs.Number.Shortest

namespace PipelineBoard.Json

open Text Decimal

/-! ## What comes after a value -/

/-- A printed value stands at the end, or a comma or a line feed comes after it. -/
def Ends (rest : List Point) : Prop := ∀ c ∈ rest.head?, c = ',' ∨ c = '\n'

theorem ends_nil : Ends [] := by simp [Ends]

theorem ends_comma (rest : List Point) : Ends (.scalar ',' :: rest) := by simp [Ends]

theorem ends_feed (rest : List Point) : Ends (.scalar '\n' :: rest) := by simp [Ends]

/-- Nothing of a class comes next. -/
def Lacks (p : Point → Bool) (rest : List Point) : Prop := ∀ c ∈ rest.head?, p c = false

theorem Ends.lacks {p : Point → Bool} (hcomma : p ',' = false) (hfeed : p '\n' = false)
    {rest : List Point} (h : Ends rest) : Lacks p rest := by
  intro c hc
  rcases h c hc with rfl | rfl
  · exact hcomma
  · exact hfeed

theorem lacks_cons {p : Point → Bool} {c : Point} (h : p c = false) (rest : List Point) :
    Lacks p (c :: rest) := by simpa [Lacks] using h

/-- A run of a class ends where the class does. -/
theorem takeWhile_run {p : Point → Bool} {cs rest : List Point} (hcs : ∀ c ∈ cs, p c = true)
    (hrest : Lacks p rest) : (cs ++ rest).takeWhile p = cs := by
  have hnil : rest.takeWhile p = [] := by
    rcases rest with _ | ⟨c, rest⟩
    · rfl
    · rw [List.takeWhile_cons_of_neg]
      simpa using hrest c rfl
  rw [List.takeWhile_append_of_pos hcs, hnil, List.append_nil]

theorem Cursor.skip_append (cs rest : List Point) (offset : Nat) :
    (Cursor.mk (cs ++ rest) offset).skip cs.length = ⟨rest, offset + cs.length⟩ := by
  unfold Cursor.skip
  rw [List.drop_left]

/-! ## The power of ten -/

/-- A power is written with its sign and its digits. -/
theorem exists_exponentText (e : Int) :
    ∃ digits : List Point, exponentText e = (if e < 0 then .scalar '-' else .scalar '+') :: digits ∧
      (∀ c ∈ digits, isDigit c = true) ∧ digits ≠ [] ∧ decimalValue digits = e.natAbs := by
  have hdigits : ∀ c ∈ digitsOf e.natAbs, isDigit c = true := isDigit_of_mem_digitsOf
  by_cases hshort : (digitsOf e.natAbs).length < 2
  · refine ⟨.scalar '0' :: digitsOf e.natAbs, ?_, ?_, by simp, ?_⟩
    · unfold exponentText
      dsimp only
      rw [if_pos hshort]
    · intro c hc
      rcases List.mem_cons.mp hc with rfl | hc
      · rfl
      · exact hdigits c hc
    · exact (decimalValue_zeros_append 1 _).trans (decimalValue_digitsOf _)
  · refine ⟨digitsOf e.natAbs, ?_, hdigits, digitsOf_ne_nil, decimalValue_digitsOf _⟩
    unfold exponentText
    dsimp only
    rw [if_neg hshort]

/-- A sign and the digits after it are read as a power. -/
theorem powerOfTen_digits (negative : Bool) {digits rest : List Point}
    (hdigits : ∀ c ∈ digits, isDigit c = true) (hne : digits ≠ []) (hrest : Lacks isDigit rest) :
    powerOfTen (.scalar 'e' :: (if negative then .scalar '-' else .scalar '+') :: (digits ++ rest)) =
      some (digits.length + 2,
        if negative then -(decimalValue digits : Int) else decimalValue digits) := by
  have hrun : (digits ++ rest).takeWhile isDigit = digits := takeWhile_run hdigits hrest
  have hsome : digits.isEmpty = false := List.isEmpty_eq_false_iff.mpr hne
  have hlength : 1 + ((digits ++ rest).length + 1 - (digits ++ rest).length) + digits.length =
      digits.length + 2 := by omega
  cases negative with
  | true =>
    simp only [powerOfTen, if_true, Numeral.takeSign, hrun, hsome, List.length_cons, hlength]
    rfl
  | false =>
    simp only [powerOfTen, Bool.false_eq_true, if_false, Numeral.takeSign, hrun, hsome,
      List.length_cons, hlength]
    rfl

theorem powerOfTen_exponentText (e : Int) {rest : List Point} (h : Ends rest) :
    powerOfTen (.scalar 'e' :: exponentText e ++ rest) = some ((.scalar 'e' :: exponentText e).length, e) := by
  obtain ⟨digits, htext, hdigits, hne, hvalue⟩ := exists_exponentText e
  have hread := powerOfTen_digits (decide (e < 0)) hdigits hne
    (h.lacks (p := isDigit) (by decide) (by decide))
  have hexponent : (if e < 0 then -(e.natAbs : Int) else e.natAbs) = e := by
    split
    · omega
    · omega
  rw [hvalue] at hread
  simp only [decide_eq_true_eq, hexponent] at hread
  rw [htext]
  exact hread

theorem powerOfTen_of_ends {rest : List Point} (h : Ends rest) : powerOfTen rest = none := by
  rcases rest with _ | ⟨c, rest⟩
  · rfl
  · rcases h c rfl with rfl | rfl <;> rfl

/-! ## The stages of a number -/

/-- What is read of a number past its digits: its power of ten, or nothing more. -/
def readPower (negative : Bool) (whole fraction : List Point) (after : Cursor) :
    Except Stop (Json × Cursor) :=
  match powerOfTen after.rest with
  | some (length, exponent) =>
    .ok (.real (ofParts negative whole fraction exponent), after.skip length)
  | none =>
    if !fraction.isEmpty then .ok (.real (ofParts negative whole fraction 0), after)
    else if Numeral.mostDigits < whole.length then .error (.tooManyDigits whole.length)
    else .ok (.int (if negative then -decimalValue whole else decimalValue whole), after)

/-- What is read past the digits before the point. -/
def readFraction (negative : Bool) (whole : List Point) (after : Cursor) :
    Except Stop (Json × Cursor) :=
  let fraction := fractionDigits after.rest
  readPower negative whole fraction
    (if fraction.isEmpty then after else after.skip (1 + fraction.length))

/-- What is read past the sign. -/
def readWhole (negative : Bool) (start : Nat) (body : Cursor) : Except Stop (Json × Cursor) :=
  let whole := wholeDigits body.rest
  if whole.isEmpty then .error (.fault .noValue start)
  else readFraction negative whole (body.skip whole.length)

theorem readNumber_eq (c : Cursor) :
    readNumber c = readWhole (c.rest.head? == some (.scalar '-')) c.offset
      (if c.rest.head? == some (.scalar '-') then c.skip 1 else c) := by
  unfold readNumber readWhole readFraction readPower
  dsimp only
  generalize (if c.rest.head? == some (.scalar '-') then c.skip 1 else c) = body
  by_cases hwhole : (wholeDigits body.rest).isEmpty = true
  · rw [if_pos hwhole, if_pos hwhole]
  · rw [if_neg hwhole, if_neg hwhole]
    generalize (fractionDigits (body.skip (wholeDigits body.rest).length).rest).isEmpty = none
    cases none with
    | true => rfl
    | false => rfl

/-! ## Stage by stage -/

/-- The sign of a number in its text. -/
def sign (negative : Bool) : List Point := if negative then [.scalar '-'] else []

theorem readNumber_sign (negative : Bool) {cs : List Point} (h : Lacks (· == .scalar '-') cs)
    (offset : Nat) :
    ∃ o, readNumber ⟨sign negative ++ cs, offset⟩ = readWhole negative offset ⟨cs, o⟩ := by
  rw [readNumber_eq]
  cases negative with
  | true => exact ⟨offset + 1, rfl⟩
  | false =>
    have hhead : (cs.head? == some (.scalar '-')) = false := by
      rcases cs with _ | ⟨c, cs⟩
      · rfl
      · exact h c rfl
    refine ⟨offset, ?_⟩
    change readWhole (cs.head? == some (.scalar '-')) offset
      (if cs.head? == some (.scalar '-') then Cursor.skip ⟨cs, offset⟩ 1 else ⟨cs, offset⟩) = _
    rw [hhead]
    rfl

theorem wholeDigits_append {whole rest : List Point} (h : IsWhole whole)
    (hrest : Lacks isDigit rest) : wholeDigits (whole ++ rest) = whole := by
  rcases h with rfl | h
  · rfl
  · obtain ⟨c, digits, rfl⟩ := List.exists_cons_of_ne_nil h.ne_nil
    have hc : c ≠ '0' := by
      intro hzero
      exact h.nonzero (congrArg some hzero)
    rw [List.cons_append, wholeDigits, if_neg hc, ← List.cons_append]
    exact takeWhile_run h.areDigits hrest

theorem readWhole_append (negative : Bool) (start : Nat) {whole rest : List Point}
    (h : IsWhole whole) (hrest : Lacks isDigit rest) (offset : Nat) :
    readWhole negative start ⟨whole ++ rest, offset⟩ =
      readFraction negative whole ⟨rest, offset + whole.length⟩ := by
  have hsome : whole.isEmpty = false := List.isEmpty_eq_false_iff.mpr h.ne_nil
  unfold readWhole
  dsimp only
  rw [wholeDigits_append h hrest, hsome, Cursor.skip_append]
  rfl

theorem readFraction_of_lacks (negative : Bool) (whole : List Point) {rest : List Point}
    (h : Lacks (· == .scalar '.') rest) (offset : Nat) :
    readFraction negative whole ⟨rest, offset⟩ = readPower negative whole [] ⟨rest, offset⟩ := by
  have hnone : fractionDigits rest = [] := by
    unfold fractionDigits
    split
    · exact absurd (h '.' rfl) (by decide)
    · rfl
  unfold readFraction
  dsimp only
  rw [hnone]
  rfl

theorem readFraction_point (negative : Bool) (whole : List Point) {fraction rest : List Point}
    (h : ∀ c ∈ fraction, isDigit c = true) (hne : fraction ≠ []) (hrest : Lacks isDigit rest)
    (offset : Nat) :
    readFraction negative whole ⟨.scalar '.' :: fraction ++ rest, offset⟩ =
      readPower negative whole fraction ⟨rest, offset + (fraction.length + 1)⟩ := by
  have hdigits : fractionDigits (.scalar '.' :: fraction ++ rest) = fraction := takeWhile_run h hrest
  have hsome : fraction.isEmpty = false := List.isEmpty_eq_false_iff.mpr hne
  have hskip := Cursor.skip_append (.scalar '.' :: fraction) rest offset
  rw [List.length_cons] at hskip
  unfold readFraction
  dsimp only
  rw [hdigits, hsome, Nat.add_comm 1]
  exact congrArg _ hskip

theorem readPower_exponentText (negative : Bool) (whole fraction : List Point) (e : Int)
    {rest : List Point} (ends : Ends rest) (offset : Nat) :
    ∃ o, readPower negative whole fraction ⟨.scalar 'e' :: exponentText e ++ rest, offset⟩ =
      .ok (.real (ofParts negative whole fraction e), ⟨rest, o⟩) := by
  unfold readPower
  rw [powerOfTen_exponentText e ends]
  dsimp only
  rw [Cursor.skip_append]
  exact ⟨_, rfl⟩

/-! ## Whole numbers -/

/-- An integer ends where its digits do. -/
theorem readWhole_integer (negative : Bool) (start n : Nat) {rest : List Point} (ends : Ends rest)
    (short : width n ≤ Numeral.mostDigits) (offset : Nat) :
    ∃ o, readWhole negative start ⟨digitsOf n ++ rest, offset⟩ =
      .ok (.int (if negative then -n else n), ⟨rest, o⟩) := by
  have hshort : ¬ Numeral.mostDigits < (digitsOf n).length := by
    rw [length_digitsOf]
    exact Nat.not_lt.mpr short
  refine ⟨offset + (digitsOf n).length, ?_⟩
  rw [readWhole_append negative start (isWhole_digitsOf n) (ends.lacks (by decide) (by decide)),
    readFraction_of_lacks _ _ (ends.lacks (by decide) (by decide))]
  unfold readPower
  rw [powerOfTen_of_ends ends]
  dsimp only
  rw [decimalValue_digitsOf, if_neg (by decide), if_neg hshort]

/-- The digits of a real number are read with its power of ten, if it has one. -/
theorem readWhole_parts (negative : Bool) (start : Nat) {parts : Parts} (real : parts.AreReal)
    {rest : List Point} (ends : Ends rest) (offset : Nat) :
    ∃ o, readWhole negative start ⟨parts.text ++ rest, offset⟩ =
      .ok (.real (ofParts negative parts.whole parts.fraction (parts.power.getD 0)),
        ⟨rest, o⟩) := by
  obtain ⟨whole, fraction, power⟩ := parts
  by_cases hfraction : fraction = []
  · -- without a point there is a power
    obtain ⟨e, rfl⟩ := Option.ne_none_iff_exists'.mp (real.marked hfraction)
    have htext : (Parts.mk whole fraction (some e)).text ++ rest =
        whole ++ (.scalar 'e' :: exponentText e ++ rest) := by
      simp [Parts.text, hfraction]
    have hdigit : Lacks isDigit (.scalar 'e' :: exponentText e ++ rest) := lacks_cons (by decide) _
    have hpoint : Lacks (· == .scalar '.') (.scalar 'e' :: exponentText e ++ rest) := lacks_cons (by decide) _
    rw [htext, readWhole_append negative start real.whole hdigit,
      readFraction_of_lacks _ _ hpoint, hfraction]
    exact readPower_exponentText negative whole [] e ends _
  · have hsome : fraction.isEmpty = false := List.isEmpty_eq_false_iff.mpr hfraction
    have htext : (Parts.mk whole fraction power).text ++ rest =
        whole ++ (.scalar '.' :: fraction ++ ((power.elim [] fun e => .scalar 'e' :: exponentText e) ++ rest)) := by
      simp [Parts.text, hsome]
    have hpoint : Lacks isDigit
        (.scalar '.' :: fraction ++ ((power.elim [] fun e => .scalar 'e' :: exponentText e) ++ rest)) :=
      lacks_cons (by decide) _
    have hafter : Lacks isDigit ((power.elim [] fun e => .scalar 'e' :: exponentText e) ++ rest) := by
      cases power with
      | none => exact ends.lacks (by decide) (by decide)
      | some e => exact lacks_cons (by decide) _
    rw [htext, readWhole_append negative start real.whole hpoint,
      readFraction_point _ _ real.fraction hfraction hafter]
    cases power with
    | none =>
      refine ⟨offset + whole.length + (fraction.length + 1), ?_⟩
      unfold readPower
      rw [Option.elim_none, List.nil_append, powerOfTen_of_ends ends]
      dsimp only
      rw [hsome]
      rfl
    | some e => exact readPower_exponentText negative whole fraction e ends _

/-! ## Numbers -/

/-- The digits of a number are not its sign. -/
theorem lacks_minus {whole : List Point} (h : IsWhole whole) (rest : List Point) :
    Lacks (· == .scalar '-') (whole ++ rest) := by
  obtain ⟨c, others, hcons⟩ := List.exists_cons_of_ne_nil h.ne_nil
  have hdigit : isDigit c = true := h.areDigits c (by simp [hcons])
  rw [hcons]
  apply lacks_cons
  rw [beq_eq_false_iff_ne]
  rintro rfl
  exact absurd hdigit (by decide)

theorem toList_repr (n : Int) :
    Text.toList n.repr = sign (decide (n < 0)) ++ digitsOf n.natAbs := by
  rw [Int.repr_eq_if]
  by_cases h : 0 ≤ n
  · have hsame : n.toNat = n.natAbs := by omega
    rw [if_pos h, Text.toList_repr, hsame, decide_eq_false (Int.not_lt.mpr h)]
    rfl
  · have hsame : (-n).toNat = n.natAbs := by omega
    rw [if_neg h, ofString_append, Text.toList_append, Text.toList_repr, hsame, decide_eq_true (Int.not_le.mp h)]
    rfl

/-- An integer that is not too long reads back. -/
theorem readNumber_repr (n : Int) {rest : List Point} (ends : Ends rest)
    (short : width n.natAbs ≤ Numeral.mostDigits) (offset : Nat) :
    ∃ o, readNumber ⟨Text.toList n.repr ++ rest, offset⟩ = .ok (.int n, ⟨rest, o⟩) := by
  obtain ⟨o, hsign⟩ := readNumber_sign (decide (n < 0))
    (lacks_minus (isWhole_digitsOf n.natAbs) rest) offset
  obtain ⟨o', hdigits⟩ := readWhole_integer (decide (n < 0)) offset n.natAbs ends short o
  have hvalue : (if decide (n < 0) then -(n.natAbs : Int) else n.natAbs) = n := by
    by_cases h : n < 0
    · rw [decide_eq_true h, if_pos rfl]
      omega
    · rw [decide_eq_false h, if_neg (by decide)]
      omega
  refine ⟨o', ?_⟩
  rw [toList_repr, List.append_assoc, hsign, hdigits, hvalue]

/-- A finite real number reads back. -/
theorem readNumber_text {d : Binary64} (finite : d.isFinite = true) {rest : List Point}
    (ends : Ends rest) (offset : Nat) :
    ∃ o, readNumber ⟨Decimal.text .json d ++ rest, offset⟩ = .ok (.real d, ⟨rest, o⟩) := by
  cases d with
  | nan => cases finite
  | signed negative place =>
    have hfinite : place.val < infinityPlace := of_decide_eq_true finite
    obtain ⟨parts, real, htext, hplace⟩ := writes_magnitudeText .json hfinite
    have hdigits : Lacks (· == .scalar '-') (parts.text ++ rest) := by
      unfold Parts.text
      rw [List.append_assoc, List.append_assoc]
      exact lacks_minus real.whole _
    have hvalue : ofParts negative parts.whole parts.fraction (parts.power.getD 0) =
        .signed negative place := by
      unfold ofParts toBinary
      rw [place_eq_placeOf]
      change Binary64.ofPlace negative parts.place = _
      rw [hplace, Binary64.ofPlace_val]
    obtain ⟨o, hsign⟩ := readNumber_sign negative hdigits offset
    obtain ⟨o', hparts⟩ := readWhole_parts negative offset real ends o
    refine ⟨o', ?_⟩
    change readNumber ⟨sign negative ++ magnitudeText .json place.val ++ rest, offset⟩ = _
    rw [htext, List.append_assoc, hsign, hparts, hvalue]

end PipelineBoard.Json
