-- What a reader finds at the front of a printed value: a quoted text, white space
-- between the lines, and the character that says which kind of value it is.
import PipelineBoard.Proofs.Json.Numerals
import PipelineBoard.Proofs.Text.Quoted

namespace PipelineBoard.Json

open Text Decimal

/-! ## Strings -/

theorem unit?_eq (a b c d : Point) : unit? a b c d = hexNumber? [a, b, c, d] := by
  unfold unit? hexNumber?
  simp only [List.foldlM_cons, List.foldlM_nil]
  cases hexValue? a <;> cases hexValue? b <;> cases hexValue? c <;> cases hexValue? d <;> simp
  omega

/-- Every short escape is one of the reader, which means the same by it. -/
theorem shortEscape?_letter :
    ∀ escape ∈ shortEscapes, shortEscape? escape.1 = some escape.2 ∧ escape.1 ≠ 'u' := by decide

theorem readString_short {letter c : Point} (h : (letter, c) ∈ shortEscapes) (start : Nat)
    (done : List Piece) (offset : Nat) (rest : List Point) :
    readString start done offset (.scalar '\\' :: letter :: rest) =
      readString start (.point c :: done) (offset + 2) rest := by
  obtain ⟨hshort, hletter⟩ := shortEscape?_letter _ h
  rw [readString]
  · rw [hshort]
  · intro _ _ _ _ _ hu
    exact absurd hu hletter
  · exact hletter

theorem readString_number {n : Nat} (h : n < 16 ^ 4) (start : Nat) (done : List Piece) (offset : Nat)
    {rest : List Point} (hrest : rest ≠ []) :
    readString start done offset (.scalar '\\' :: .scalar 'u' :: hexDigits 4 n ++ rest) =
      readString start (.unit n :: done) (offset + 6) rest := by
  obtain ⟨a, b, c, d, hdigits⟩ := exists_hexDigits_four n
  have hunit : unit? a b c d = some n := by
    rw [unit?_eq, ← hdigits]
    exact hexNumber?_hexDigits_of_lt h
  have hsome : rest.isEmpty = false := List.isEmpty_eq_false_iff.mpr hrest
  rw [hdigits]
  simp [readString, hunit, hsome]

theorem readString_itself {c : Point} (h : StandsAsItIs c) (start : Nat) (done : List Piece)
    (offset : Nat) (rest : List Point) :
    readString start done offset (c :: rest) =
      readString start (.point c :: done) (offset + 1) rest := by
  have hcontrol : ¬ c.toNat < 32 := Nat.not_lt.mpr h.notControl
  rw [readString, if_neg hcontrol]
  · exact h.notQuote
  · exact fun _ _ _ _ _ hc => absurd hc h.notBackslash
  · exact fun _ hc => absurd hc h.notBackslash
  · exact fun hc => absurd hc h.notBackslash
  · exact fun _ _ hc => absurd hc h.notBackslash

/-- A piece that stands for a code point on its own. -/
inductive PieceOf (c : Point) : Piece → Prop
  | point : PieceOf c (.point c)
  | unit (h : c.toNat < 32) : PieceOf c (.unit c.toNat)

/-- An escape adds a piece for its character to those that were read. -/
theorem readString_escapeDouble (start : Nat) (done : List Piece) (offset : Nat) (c : Point)
    {rest : List Point} (hrest : rest ≠ []) :
    ∃ o piece, PieceOf c piece ∧ readString start done offset (escapeDouble c ++ rest) =
      readString start (piece :: done) o rest := by
  generalize escapeDouble c = written, escapedAs_escapeDouble c = escaped
  cases escaped with
  | short h => exact ⟨offset + 2, _, .point, readString_short h start done offset rest⟩
  | number h =>
    exact ⟨offset + 6, _, .unit h, readString_number (by omega) start done offset hrest⟩
  | itself h => exact ⟨offset + 1, _, .point, readString_itself h start done offset rest⟩

theorem joinPieces_unit {n : Nat} (h : isHighSurrogate n = false) (pieces : List Piece) :
    joinPieces (.unit n :: pieces) = .ofNat n :: joinPieces pieces := by
  rcases pieces with _ | ⟨⟨p⟩ | ⟨next⟩, pieces⟩
  · rfl
  · rfl
  · rw [joinPieces, h]
    rfl

/-- Pieces that stand for code points on their own are joined to these. -/
theorem joinPieces_eq {cs : List Point} {pieces : List Piece} (h : List.Forall₂ PieceOf cs pieces) :
    joinPieces pieces = cs := by
  induction h with
  | nil => rfl
  | cons hpiece _ ih =>
    cases hpiece with
    | point => rw [joinPieces, ih]
    | unit h =>
      rw [joinPieces_unit, ih, Point.ofNat_toNat]
      simp [isHighSurrogate]
      omega

theorem readString_escaped (start : Nat) (cs rest : List Point) :
    ∀ (done : List Piece) (offset : Nat), ∃ o pieces, List.Forall₂ PieceOf cs pieces ∧
      readString start done offset (cs.flatMap escapeDouble ++ .scalar '"' :: rest) =
        .ok (Text.ofList (joinPieces (done.reverse ++ pieces)), ⟨rest, o⟩) := by
  induction cs with
  | nil =>
    intro done offset
    refine ⟨offset + 1, [], .nil, ?_⟩
    simp [readString]
  | cons c cs ih =>
    intro done offset
    have hmore : cs.flatMap escapeDouble ++ .scalar '"' :: rest ≠ [] := by simp
    obtain ⟨o, piece, hpiece, hc⟩ := readString_escapeDouble start done offset c hmore
    obtain ⟨o', pieces, hpieces, hcs⟩ := ih (piece :: done) o
    refine ⟨o', piece :: pieces, .cons hpiece hpieces, ?_⟩
    rw [List.flatMap_cons, List.append_assoc, hc, hcs]
    simp

/-- A quoted text reads back from behind its opening quote. -/
theorem readString_doubleQuoted (start : Nat) (s : Text) (rest : List Point) (offset : Nat) :
    ∃ o, readString start [] offset (s.toList.flatMap escapeDouble ++ .scalar '"' :: rest) =
      .ok (s, ⟨rest, o⟩) := by
  obtain ⟨o, pieces, hpieces, h⟩ := readString_escaped start s.toList rest [] offset
  refine ⟨o, ?_⟩
  rw [h, List.reverse_nil, List.nil_append, joinPieces_eq hpieces, Text.ofList_toList]

/-! ## White space -/

theorem skipSpace_append {blanks rest : List Point} (h : ∀ c ∈ blanks, isSpace c = true)
    (hrest : Lacks isSpace rest) (offset : Nat) :
    (Cursor.mk (blanks ++ rest) offset).skipSpace = ⟨rest, offset + blanks.length⟩ := by
  unfold Cursor.skipSpace
  dsimp only
  rw [takeWhile_run h hrest, Cursor.skip_append]

theorem skipSpace_of_lacks {rest : List Point} (h : Lacks isSpace rest) (offset : Nat) :
    (Cursor.mk rest offset).skipSpace = ⟨rest, offset⟩ :=
  @skipSpace_append [] rest (fun _ hc => absurd hc List.not_mem_nil) h offset

theorem isSpace_of_mem_newLine (depth : Nat) : ∀ c ∈ newLine depth, isSpace c = true := by
  intro c hc
  rcases List.mem_cons.mp hc with rfl | hc
  · decide
  · rw [List.eq_of_mem_replicate hc]
    decide

/-! ## The front of a value -/

/-- A number starts with a digit, or with a minus and a digit. -/
inductive StartsNumber : List Point → Prop
  | digit {c : Point} (h : isDigit c = true) (rest : List Point) : StartsNumber (c :: rest)
  | minus {c : Point} (h : isDigit c = true) (rest : List Point) : StartsNumber (.scalar '-' :: c :: rest)

theorem startsNumber_sign (negative : Bool) {whole : List Point} (h : IsWhole whole)
    (rest : List Point) : StartsNumber (sign negative ++ (whole ++ rest)) := by
  obtain ⟨c, others, hcons⟩ := List.exists_cons_of_ne_nil h.ne_nil
  have hdigit : isDigit c = true := h.areDigits c (by simp [hcons])
  rw [hcons]
  cases negative with
  | true => exact .minus hdigit _
  | false => exact .digit hdigit _

theorem startsNumber_repr (n : Int) (rest : List Point) :
    StartsNumber (Text.toList n.repr ++ rest) := by
  rw [toList_repr, List.append_assoc]
  exact startsNumber_sign _ (isWhole_digitsOf _) rest

theorem startsNumber_text {d : Binary64} (finite : d.isFinite = true) (rest : List Point) :
    StartsNumber (Decimal.text .json d ++ rest) := by
  cases d with
  | nan => cases finite
  | signed negative place =>
    obtain ⟨parts, real, htext, _⟩ := writes_magnitudeText .json (of_decide_eq_true finite)
    change StartsNumber (sign negative ++ magnitudeText .json place.val ++ rest)
    rw [htext, Parts.text, List.append_assoc, List.append_assoc, List.append_assoc]
    exact startsNumber_sign negative real.whole _

/-- Every word starts with a letter, or with a minus and a letter. -/
theorem words_start : ∀ entry ∈ words,
    isDigit (entry.1.toList.headD ' ') = false ∧
      (entry.1.toList.headD ' ' = .scalar '-' → isDigit (entry.1.toList.tail.headD ' ') = false) ∧
      1 < entry.1.toList.length := by
  simp only [words, List.mem_cons, List.not_mem_nil, or_false]
  rintro entry (rfl | rfl | rfl | rfl | rfl | rfl) <;> decide

theorem word?_of_startsNumber {cs : List Point} (h : StartsNumber cs) (offset : Nat) :
    word? ⟨cs, offset⟩ = none := by
  unfold word?
  rw [List.findSome?_eq_none_iff]
  intro entry hentry
  obtain ⟨hfirst, hsecond, hlength⟩ := words_start entry hentry
  have hnot : ¬ entry.1.toList.isPrefixOf cs = true := by
    rw [List.isPrefixOf_iff_prefix]
    generalize entry.1.toList = word at hfirst hsecond hlength
    rcases word with _ | ⟨a, _ | ⟨b, word⟩⟩
    · simp at hlength
    · simp at hlength
    · rintro ⟨rest, rfl⟩
      cases h with
      | digit hc _ => exact absurd hc (by simpa using hfirst)
      | minus hc _ => exact absurd hc (by simpa using hsecond)
  exact if_neg hnot

theorem StartsNumber.ne {cs : List Point} (h : StartsNumber cs) {d : Point}
    (hdigit : isDigit d = false) (hminus : d ≠ '-') (rest : List Point) : cs ≠ d :: rest := by
  rintro rfl
  cases h with
  | digit hc _ => exact absurd hc (by simp [hdigit])
  | minus _ _ => exact hminus rfl

theorem readValue_of_startsNumber {cs : List Point} (h : StartsNumber cs) (steps offset : Nat) :
    readValue (steps + 1) ⟨cs, offset⟩ = readNumber ⟨cs, offset⟩ := by
  have hword := word?_of_startsNumber h offset
  rw [readValue]
  split
  · rename_i rest hcs
    exact absurd hcs (h.ne (by decide) (by decide) rest)
  · rename_i rest hcs
    exact absurd hcs (h.ne (by decide) (by decide) rest)
  · rename_i rest hcs
    exact absurd hcs (h.ne (by decide) (by decide) rest)
  · rw [hword]

/-- At the front stands no white space, no end of a list and no byte order mark. -/
def Opens (cs : List Point) : Prop :=
  ∃ c rest, cs = c :: rest ∧ isSpace c = false ∧ c ≠ ']' ∧ c ≠ '\ufeff'

theorem StartsNumber.opens {cs : List Point} (h : StartsNumber cs) : Opens cs := by
  rcases hcs : cs with _ | ⟨c, rest⟩
  · rw [hcs] at h
    cases h
  · refine ⟨c, rest, rfl, ?_, ?_, ?_⟩
    · rw [← Bool.not_eq_true]
      intro hspace
      simp only [isSpace, Bool.or_eq_true, beq_iff_eq] at hspace
      rcases hspace with ((rfl | rfl) | rfl) | rfl <;> exact h.ne (by decide) (by decide) rest hcs
    · rintro rfl
      exact h.ne (by decide) (by decide) rest hcs
    · rintro rfl
      exact h.ne (by decide) (by decide) rest hcs

theorem opens_render (depth : Nat) {v : Json} (plain : v.isPlain = true) :
    Opens (render depth v) := by
  have hgiven : ∀ {c}, (!isSpace c && c != ']' && c != '\ufeff') = true →
      ∀ rest, Opens (c :: rest) := by
    intro c hc rest
    simp only [Bool.and_eq_true, Bool.not_eq_true', bne_iff_ne] at hc
    obtain ⟨⟨hspace, hclose⟩, hmark⟩ := hc
    exact ⟨c, rest, rfl, hspace, hclose, hmark⟩
  cases v with
  | null => exact hgiven rfl _
  | bool value =>
    cases value with
    | true => exact hgiven rfl _
    | false => exact hgiven rfl _
  | int n =>
    have hstart := startsNumber_repr n []
    rw [List.append_nil] at hstart
    rw [render]
    exact hstart.opens
  | real d =>
    have hstart := startsNumber_text (d := d) plain []
    rw [List.append_nil] at hstart
    rw [render]
    exact hstart.opens
  | string s =>
    rw [render]
    exact hgiven rfl _
  | list items =>
    rw [render]
    split
    · exact hgiven rfl _
    · exact hgiven rfl _
  | object fields =>
    rw [render]
    split
    · exact hgiven rfl _
    · exact hgiven rfl _

theorem Opens.lacks {cs : List Point} (h : Opens cs) (rest : List Point) :
    Lacks isSpace (cs ++ rest) := by
  obtain ⟨c, others, rfl, hspace, _⟩ := h
  exact lacks_cons hspace _

theorem Opens.head?_append {cs : List Point} (h : Opens cs) (rest : List Point) :
    (cs ++ rest).head? ≠ some (.scalar ']') ∧ (cs ++ rest).head? ≠ some (.scalar '\ufeff') := by
  obtain ⟨c, others, rfl, _, hclose, hmark⟩ := h
  constructor
  · simpa using hclose
  · simpa using hmark

theorem length_render_pos (depth : Nat) {v : Json} (plain : v.isPlain = true) :
    0 < (render depth v).length := by
  obtain ⟨c, rest, hcs, _⟩ := opens_render depth plain
  rw [hcs]
  exact Nat.succ_pos _

end PipelineBoard.Json
