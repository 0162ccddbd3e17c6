-- Numbers of too many digits. The reader stops at one only if so many digits stand
-- in a row in the text; at a text of so many digits and nothing else it does stop.
import PipelineBoard.Proofs.Json.Reading

namespace PipelineBoard.Json

open Text Decimal

/-! ## What a reader leaves of a text -/

/-- So many digits stand in a row, and they are more than a number may have. -/
def HasLongRun (cs : List Point) (count : Nat) : Prop :=
  Numeral.mostDigits < count ∧
    ∃ run, run <:+: cs ∧ run.length = count ∧ ∀ c ∈ run, isDigit c = true

/-- What came of reading at the front of a text: what is left is an end of the text,
or a number of too many digits stands in it, or there is some fault. -/
def ReadFrom {α : Type} (cs : List Point) : Except Stop (α × Cursor) → Prop
  | .ok (_, after) => after.rest <:+ cs
  | .error (.tooManyDigits count) => HasLongRun cs count
  | .error (.fault _ _) => True

theorem HasLongRun.of_suffix {cs ds : List Point} {count : Nat} (h : HasLongRun cs count)
    (hcs : cs <:+ ds) : HasLongRun ds count := by
  obtain ⟨hlong, run, hrun, hlength, hdigits⟩ := h
  exact ⟨hlong, run, hrun.trans hcs.isInfix, hlength, hdigits⟩

theorem ReadFrom.of_suffix {α : Type} {cs ds : List Point} {result : Except Stop (α × Cursor)}
    (h : ReadFrom cs result) (hcs : cs <:+ ds) : ReadFrom ds result := by
  rcases result with ⟨⟨_, _⟩ | count⟩ | ⟨value, after⟩
  · trivial
  · exact HasLongRun.of_suffix h hcs
  · exact List.IsSuffix.trans h hcs

/-- Where reading stops does not depend on what was to be read. -/
theorem ReadFrom.of_error {α β : Type} {cs : List Point} {stop : Stop}
    (h : ReadFrom cs (.error stop : Except Stop (α × Cursor))) :
    ReadFrom cs (.error stop : Except Stop (β × Cursor)) := by
  cases stop with
  | fault fault offset => trivial
  | tooManyDigits count => exact h

theorem skip_suffix (c : Cursor) (count : Nat) : (c.skip count).rest <:+ c.rest :=
  List.drop_suffix ..

theorem skipSpace_suffix (c : Cursor) : c.skipSpace.rest <:+ c.rest := skip_suffix ..

/-! ## Strings, words and numbers -/

theorem readFrom_readString (start : Nat) (done : List Piece) (offset : Nat) (cs : List Point) :
    ReadFrom cs (readString start done offset cs) := by
  fun_induction readString start done offset cs with
  | case1 => trivial
  | case2 => exact List.suffix_cons ..
  | case3 => trivial
  | case4 => trivial
  | case5 _ _ a b c d rest _ _ _ ih =>
    exact ih.of_suffix (List.suffix_append [Point.scalar '\\', Point.scalar 'u', a, b, c, d] rest)
  | case6 => trivial
  | case7 => trivial
  | case8 => trivial
  | case9 _ _ c rest _ _ _ _ ih => exact ih.of_suffix (List.suffix_append [Point.scalar '\\', c] rest)
  | case10 => trivial
  | case11 _ _ c rest _ _ _ _ _ _ ih => exact ih.of_suffix (List.suffix_cons c rest)

theorem readFrom_word? {c : Cursor} {found : Json × Cursor} (h : word? c = some found) :
    ReadFrom c.rest (.ok found) := by
  obtain ⟨⟨word, value⟩, _, hword⟩ := List.exists_of_findSome?_eq_some h
  simp only [Option.ite_none_right_eq_some, Option.some.injEq] at hword
  obtain ⟨_, rfl⟩ := hword
  exact skip_suffix c word.length

theorem wholeDigits_isPrefix (cs : List Point) : wholeDigits cs <+: cs := by
  unfold wholeDigits
  split
  · exact List.prefix_rfl
  · split
    · exact ⟨_, rfl⟩
    · exact List.takeWhile_prefix _

theorem isDigit_of_mem_wholeDigits {cs : List Point} : ∀ c ∈ wholeDigits cs, isDigit c = true := by
  unfold wholeDigits
  split
  · simp
  · split
    · rename_i hzero
      intro c hc
      rw [List.mem_singleton.mp hc, hzero]
      decide
    · exact fun c hc => List.mem_takeWhile_imp hc

/-- Only the digits before the point are counted. -/
theorem readFrom_readPower {negative : Bool} {whole fraction cs : List Point} {after : Cursor}
    (hafter : after.rest <:+ cs) (hwhole : whole <:+: cs)
    (hdigits : ∀ c ∈ whole, isDigit c = true) :
    ReadFrom cs (readPower negative whole fraction after) := by
  unfold readPower
  split
  · exact (skip_suffix ..).trans hafter
  · split
    · exact hafter
    · split
      · rename_i hlong
        exact ⟨hlong, whole, hwhole, rfl, hdigits⟩
      · exact hafter

theorem readFrom_readWhole (negative : Bool) (start : Nat) (body : Cursor) :
    ReadFrom body.rest (readWhole negative start body) := by
  unfold readWhole readFraction
  dsimp only
  split
  · trivial
  · apply readFrom_readPower _ (wholeDigits_isPrefix _).isInfix isDigit_of_mem_wholeDigits
    split
    · exact skip_suffix ..
    · exact (skip_suffix ..).trans (skip_suffix ..)

theorem readFrom_readNumber (c : Cursor) : ReadFrom c.rest (readNumber c) := by
  rw [readNumber_eq]
  refine (readFrom_readWhole ..).of_suffix ?_
  split
  · exact skip_suffix ..
  · exact List.suffix_rfl

/-! ## Values -/

mutual

theorem readFrom_readValue (c : Cursor) :
    ∀ steps, ReadFrom c.rest (readValue steps c)
  | 0 => trivial
  | steps + 1 => by
    have hinside : (c.skip 1).skipSpace.rest <:+ c.rest :=
      (skipSpace_suffix _).trans (skip_suffix ..)
    rw [readValue]
    split
    · rename_i rest hrest
      have hstring := (readFrom_readString c.offset [] (c.offset + 1) rest).of_suffix
        (hrest ▸ List.suffix_cons (Point.scalar '"') rest)
      rcases hread : readString c.offset [] (c.offset + 1) rest with stop | ⟨s, after⟩
      · rw [hread] at hstring
        exact hstring.of_error
      · rw [hread] at hstring
        exact hstring
    · dsimp only
      split
      · exact (skip_suffix ..).trans hinside
      · exact (readFrom_readFields [] _ steps).of_suffix hinside
    · dsimp only
      split
      · exact (skip_suffix ..).trans hinside
      · exact (readFrom_readItems [] _ steps).of_suffix hinside
    · split
      · rename_i hword
        exact readFrom_word? hword
      · exact readFrom_readNumber c

theorem readFrom_readItems (done : List Json) (c : Cursor) :
    ∀ steps, ReadFrom c.rest (readItems steps done c)
  | 0 => trivial
  | steps + 1 => by
    have hvalue := readFrom_readValue c steps
    rw [readItems]
    split
    · rename_i hstop
      rw [hstop] at hvalue
      exact hvalue
    · rename_i value next hnext
      rw [hnext] at hvalue
      have hafter : next.skipSpace.rest <:+ c.rest := (skipSpace_suffix _).trans hvalue
      dsimp only
      split
      · exact (skip_suffix ..).trans hafter
      · exact (readFrom_readItems _ _ steps).of_suffix
          ((skipSpace_suffix _).trans ((skip_suffix ..).trans hafter))
      · trivial

theorem readFrom_readFields (done : Fields) (c : Cursor) :
    ∀ steps, ReadFrom c.rest (readFields steps done c)
  | 0 => trivial
  | steps + 1 => by
    rw [readFields]
    split
    · rename_i rest hrest
      have hkey := (readFrom_readString c.offset [] (c.offset + 1) rest).of_suffix
        (hrest ▸ List.suffix_cons (Point.scalar '"') rest)
      split
      · rename_i hstop
        rw [hstop] at hkey
        exact hkey.of_error
      · rename_i key next hnext
        rw [hnext] at hkey
        have hcolon : next.skipSpace.rest <:+ c.rest := (skipSpace_suffix _).trans hkey
        dsimp only
        split
        · have hstart : (next.skipSpace.skip 1).skipSpace.rest <:+ c.rest :=
            (skipSpace_suffix _).trans ((skip_suffix ..).trans hcolon)
          have hvalue := (readFrom_readValue (next.skipSpace.skip 1).skipSpace steps).of_suffix hstart
          split
          · rename_i hstop
            rw [hstop] at hvalue
            exact hvalue
          · rename_i value last hlast
            rw [hlast] at hvalue
            have hafter : last.skipSpace.rest <:+ c.rest := (skipSpace_suffix _).trans hvalue
            split
            · exact (skip_suffix ..).trans hafter
            · exact (readFrom_readFields _ _ steps).of_suffix
                ((skipSpace_suffix _).trans ((skip_suffix ..).trans hafter))
            · trivial
        · trivial
    · trivial

end

theorem hasLongRun_of_read {text : Text} {count : Nat}
    (h : read text = .error (.tooManyDigits count)) : HasLongRun text.toList count := by
  have hvalue := (readFrom_readValue (Cursor.mk text.toList 0).skipSpace
    (2 * text.toList.length + 2)).of_suffix (skipSpace_suffix _)
  unfold read readChars at h
  split at h
  · cases h
  · cases h
  · rename_i hchars
    cases h
    split at hchars
    · cases hchars
    · split at hchars
      · rename_i hstop
        cases hchars
        rw [hstop] at hvalue
        exact hvalue
      · dsimp only at hchars
        split at hchars
        · cases hchars
        · cases hchars

/-! ## A number and nothing else -/

section

variable {digits : List Point} (h : IsWhole digits) (long : Numeral.mostDigits < digits.length)
include h long

theorem readNumber_of_long_number (offset : Nat) :
    readNumber ⟨digits, offset⟩ = .error (.tooManyDigits digits.length) := by
  have hminus := lacks_minus h []
  rw [List.append_nil] at hminus
  obtain ⟨o, hsign⟩ := readNumber_sign false hminus offset
  have hnothing : Lacks isDigit [] := by simp [Lacks]
  have hwhole := readWhole_append false offset h hnothing o
  rw [List.append_nil] at hwhole
  refine hsign.trans (hwhole.trans ?_)
  rw [readFraction_of_lacks false digits (by simp [Lacks])]
  unfold readPower
  simp [powerOfTen, long]

theorem read_of_long_number :
    read (Text.ofList digits) = .error (.tooManyDigits digits.length) := by
  have hstart : StartsNumber digits := by
    have hsigned := startsNumber_sign false h []
    rwa [List.append_nil] at hsigned
  have hspace : Lacks isSpace digits := by
    have hlacks := hstart.opens.lacks []
    rwa [List.append_nil] at hlacks
  have hmark : (digits.head? == some (.scalar '\ufeff')) = false := by
    have hhead := (hstart.opens.head?_append []).2
    rw [List.append_nil] at hhead
    rwa [beq_eq_false_iff_ne]
  unfold read readChars
  rw [Text.toList_ofList, hmark, skipSpace_of_lacks hspace, readValue_of_startsNumber hstart,
    readNumber_of_long_number h long]
  rfl

end

end PipelineBoard.Json
