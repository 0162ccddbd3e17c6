-- The physical lines of a text and the lines of code among them, and which
-- texts stay on one line.
import PipelineBoard.Proofs.Text.Digit
import PipelineBoard.Text.Identifier

namespace PipelineBoard.Text

/-! ## Lines of code -/

/-- The lines of a text, cut at each line feed, each carriage return and each
pair of the two. -/
def physicalLines (s : Text) : List Text := (cutAtFeeds (unifyFeeds s.toList)).map Text.ofList

/-- The blanks that may stand at the front of a line. -/
def isIndent (c : Point) : Bool := c == ' ' || c == '\t' || c == '\x0c'

/-- A line of code is neither blank nor a comment. -/
def isCode (line : Text) : Bool :=
  match line.toList.dropWhile isIndent with
  | [] => false
  | c :: _ => c != '#'

def codeLines (s : Text) : List Text := (physicalLines s).filter isCode

/-- No character of the text ends a physical line. -/
def OnOneLine (s : Text) : Prop := ∀ c ∈ s.toList, c ≠ '\n' ∧ c ≠ '\r'

@[simp] theorem onOneLine_append {s t : Text} :
    OnOneLine (s ++ t) ↔ OnOneLine s ∧ OnOneLine t := by
  unfold OnOneLine
  simp only [Text.toList_append, List.mem_append, or_imp]
  exact forall_and

theorem onOneLine_ofList {cs : List Point} :
    OnOneLine (Text.ofList cs) ↔ ∀ c ∈ cs, c ≠ '\n' ∧ c ≠ '\r' := by
  unfold OnOneLine
  rw [Text.toList_ofList]

/-- A class of characters without the two line ends stays on one line. -/
theorem onOneLine_of_class {p : Point → Bool} (hfeed : p '\n' = false) (hreturn : p '\r' = false)
    {s : Text} (h : ∀ c ∈ s.toList, p c = true) : OnOneLine s := by
  intro c hc
  have hp := h c hc
  constructor
  · rintro rfl
    rw [hfeed] at hp
    cases hp
  · rintro rfl
    rw [hreturn] at hp
    cases hp

theorem isCode_empty : isCode "" = false := by simp [isCode]

@[simp] theorem isCode_comment (text : Text) : isCode ("# " ++ text) = false := by
  simp [isCode, isIndent]

theorem isCode_append {s : Text} (h : isCode s = true) (t : Text) : isCode (s ++ t) = true := by
  unfold isCode at h ⊢
  rcases hs : s.toList.dropWhile isIndent with _ | ⟨c, cs⟩
  · simp [hs] at h
  · rw [hs] at h
    rw [Text.toList_append, List.dropWhile_append, hs]
    exact h

/-- The text is one physical line, and a line of code. -/
def CodeLine (s : Text) : Prop := OnOneLine s ∧ isCode s = true

theorem CodeLine.append {s t : Text} (hs : CodeLine s) (ht : OnOneLine t) : CodeLine (s ++ t) :=
  ⟨onOneLine_append.mpr ⟨hs.1, ht⟩, isCode_append hs.2 t⟩

/-! ## Lines that are given in full -/

-- The characters of a string are read off a list of them at once, and off the
-- string itself byte by byte.
theorem toList_given (cs : List Char) : Text.toList (String.ofList cs) = cs.map Point.scalar := by
  rw [toList_ofString, String.toList_ofList]

/-- A class that holds every character of a given text. -/
theorem forall_mem_given {p : Point → Bool} {cs : List Char}
    (h : cs.all (fun c => p (.scalar c)) = true) :
    ∀ c ∈ Text.toList (String.ofList cs), p c = true := by
  rw [toList_given]
  exact List.forall_mem_map.mpr (List.all_eq_true.mp h)

theorem onOneLine_given {cs : List Char} (h : cs.all (fun c => c != '\n' && c != '\r') = true) :
    OnOneLine (String.ofList cs) := by
  intro c hc
  obtain ⟨d, hd, rfl⟩ := List.mem_map.mp (toList_given cs ▸ hc)
  simpa using List.all_eq_true.mp h d hd

theorem isCode_given {cs : List Char} {c : Point}
    (hhead : ((cs.map Point.scalar).dropWhile isIndent).head? = some c)
    (hhash : (c != '#') = true) : isCode (String.ofList cs) = true := by
  unfold isCode
  rw [toList_given]
  rcases hcs : (cs.map Point.scalar).dropWhile isIndent with _ | ⟨d, rest⟩
  · rw [hcs] at hhead
    cases hhead
  · rw [hcs] at hhead
    cases hhead
    exact hhash

theorem codeLine_given {cs : List Char} (h : cs.all (fun c => c != '\n' && c != '\r') = true)
    {c : Point} (hhead : ((cs.map Point.scalar).dropWhile isIndent).head? = some c)
    (hhash : (c != '#') = true) : CodeLine (String.ofList cs) := ⟨onOneLine_given h, isCode_given hhead hhash⟩

/-! ## Cutting and joining -/

theorem unifyFeeds_append {cs : List Point} (h : Point.scalar '\r' ∉ cs) (rest : List Point) :
    unifyFeeds (cs ++ rest) = cs ++ unifyFeeds rest := by
  induction cs with
  | nil => rfl
  | cons c cs ih =>
    have hc : c ≠ '\r' := fun e => h (e ▸ List.mem_cons_self)
    rw [List.cons_append, unifyFeeds, ih fun hm => h (List.mem_cons_of_mem _ hm),
      List.cons_append]
    · exact fun _ e => absurd e hc
    · exact fun e => absurd e hc

theorem unifyFeeds_eq_self {cs : List Point} (h : Point.scalar '\r' ∉ cs) : unifyFeeds cs = cs := by
  simpa [unifyFeeds] using unifyFeeds_append h []

/-- A text is cut at a line feed into the pieces before it and those behind it. -/
theorem cutAtFeeds_append (cs rest : List Point) :
    cutAtFeeds (cs ++ .scalar '\n' :: rest) = cutAtFeeds cs ++ cutAtFeeds rest := by
  induction cs with
  | nil => simp [cutAtFeeds]
  | cons c cs ih =>
    rw [List.cons_append, cutAtFeeds, cutAtFeeds, ih]
    by_cases hc : c = '\n'
    · rw [if_pos hc, if_pos hc, List.cons_append]
    · obtain ⟨piece, pieces, hcut⟩ := List.exists_cons_of_ne_nil (cutAtFeeds_ne_nil cs)
      rw [if_neg hc, if_neg hc, hcut]
      rfl

/-- The first piece of a text starts with what stands before its first line feed. -/
theorem exists_cutAtFeeds_append {cs : List Point} (h : Point.scalar '\n' ∉ cs) (rest : List Point) :
    ∃ piece pieces, cutAtFeeds rest = piece :: pieces ∧
      cutAtFeeds (cs ++ rest) = (cs ++ piece) :: pieces := by
  obtain ⟨piece, pieces, hrest⟩ := List.exists_cons_of_ne_nil (cutAtFeeds_ne_nil rest)
  refine ⟨piece, pieces, hrest, ?_⟩
  induction cs with
  | nil => exact hrest
  | cons c cs ih =>
    have hc : c ≠ '\n' := fun e => h (e ▸ List.mem_cons_self)
    rw [List.cons_append, cutAtFeeds, if_neg hc, ih fun hm => h (List.mem_cons_of_mem _ hm),
      List.cons_append]

theorem cutAtFeeds_of_not_mem {cs : List Point} (h : Point.scalar '\n' ∉ cs) :
    cutAtFeeds cs = [cs] := by
  obtain ⟨piece, pieces, hnil, hcut⟩ := exists_cutAtFeeds_append h []
  cases hnil
  rwa [List.append_nil] at hcut

/-- A text that starts with a text on one line has a first line that does. -/
theorem exists_physicalLines_append {s : Text} (h : OnOneLine s) (t : Text) :
    ∃ line, physicalLines (s ++ t) = (s ++ line) :: (physicalLines t).tail := by
  obtain ⟨piece, pieces, hrest, hcut⟩ := exists_cutAtFeeds_append
    (fun hm => (h _ hm).1 rfl : Point.scalar '\n' ∉ s.toList) (unifyFeeds t.toList)
  refine ⟨Text.ofList piece, ?_⟩
  rw [physicalLines, Text.toList_append, unifyFeeds_append fun hm => (h _ hm).2 rfl, hcut,
    physicalLines, hrest, List.map_cons, Text.ofList_append, Text.ofList_toList]
  rfl

-- A carriage return at the end of the first text is one line end with the feed.
theorem exists_unifyFeeds_append (cs rest : List Point) :
    ∃ front, unifyFeeds (cs ++ .scalar '\n' :: rest) = front ++ .scalar '\n' :: unifyFeeds rest ∧
      (unifyFeeds cs = front ∨ unifyFeeds cs = front ++ [.scalar '\n']) := by
  fun_induction unifyFeeds cs with
  | case1 => exact ⟨[], by simp [unifyFeeds], .inl rfl⟩
  | case2 cs ih =>
    obtain ⟨front, hfeed, hfront⟩ := ih
    refine ⟨.scalar '\n' :: front, by simp [unifyFeeds, hfeed], ?_⟩
    simpa using hfront
  | case3 cs hfeed ih =>
    obtain ⟨front, hunify, hfront⟩ := ih
    rcases cs with _ | ⟨c, cs⟩
    · exact ⟨[], by simp [unifyFeeds], .inr (by simp [unifyFeeds])⟩
    · have hc : c ≠ .scalar '\n' := fun hc => hfeed cs (by rw [hc])
      refine ⟨.scalar '\n' :: front, ?_, by simpa using hfront⟩
      rw [List.cons_append, unifyFeeds, hunify, List.cons_append]
      exact fun other hother => hc (List.cons.inj hother).1
  | case4 c cs hpair hreturn ih =>
    obtain ⟨front, hunify, hfront⟩ := ih
    refine ⟨c :: front, ?_, by simpa using hfront⟩
    rw [List.cons_append, unifyFeeds, hunify, List.cons_append]
    · exact fun other hc => absurd hc hreturn
    · exact hreturn

/-- The lines on both sides of a line feed are those of the two texts, but for an
empty one. -/
theorem mem_physicalLines_feed {line s t : Text} (hline : line ≠ "") :
    line ∈ physicalLines (s ++ "\n" ++ t) ↔ line ∈ physicalLines s ∨ line ∈ physicalLines t := by
  obtain ⟨front, hunify, hfront⟩ := exists_unifyFeeds_append s.toList t.toList
  have htext : (s ++ "\n" ++ t).toList = s.toList ++ .scalar '\n' :: t.toList := by simp
  unfold physicalLines
  rw [htext, hunify, cutAtFeeds_append, List.map_append, List.mem_append]
  rcases hfront with hfront | hfront
  · rw [hfront]
  · have hempty : cutAtFeeds [] = [[]] := rfl
    have hnone : line ∉ ([[]] : List (List Point)).map Text.ofList := by
      simpa [← toList_eq_nil_iff, ← toList_inj] using hline
    rw [hfront, cutAtFeeds_append, hempty, List.map_append, List.mem_append, or_iff_left hnone]

/-- Pieces of a cut text hold no line feed and no other characters than the text. -/
theorem of_mem_cutAtFeeds {cs piece : List Point} (h : piece ∈ cutAtFeeds cs) :
    ∀ c ∈ piece, c ≠ '\n' ∧ c ∈ cs := by
  induction cs generalizing piece with
  | nil =>
    simp only [cutAtFeeds, List.mem_singleton] at h
    simp [h]
  | cons d cs ih =>
    have hmono : ∀ p ∈ cutAtFeeds cs, ∀ c ∈ p, c ≠ '\n' ∧ c ∈ d :: cs := fun p hp c hc =>
      ⟨(ih hp c hc).1, List.mem_cons_of_mem _ (ih hp c hc).2⟩
    simp only [cutAtFeeds] at h
    split at h
    · rcases List.mem_cons.mp h with rfl | h
      · simp
      · exact hmono piece h
    · rename_i hd
      rcases hcut : cutAtFeeds cs with _ | ⟨first, others⟩
      · exact absurd hcut (cutAtFeeds_ne_nil cs)
      · rw [hcut] at h hmono
        rcases List.mem_cons.mp h with rfl | h
        · intro c hc
          rcases List.mem_cons.mp hc with rfl | hc
          · exact ⟨hd, List.mem_cons_self⟩
          · exact hmono first List.mem_cons_self c hc
        · exact hmono piece (List.mem_cons_of_mem _ h)

/-- Lines with a feed after each are cut into themselves and an empty rest. -/
theorem physicalLines_lines {lines : List Text} (hne : lines ≠ [])
    (h : ∀ l ∈ lines, OnOneLine l) :
    physicalLines (Text.intercalate "\n" lines ++ "\n") = lines ++ [("" : Text)] := by
  have htext : (Text.intercalate "\n" lines ++ "\n").toList =
      lines.flatMap fun l => l.toList ++ [.scalar '\n'] := by
    induction lines with
    | nil => exact absurd rfl hne
    | cons l ls ih =>
      rcases ls with _ | ⟨l', ls⟩
      · simp
      · rw [List.flatMap_cons, ← ih (by simp) fun x hx => h x (List.mem_cons_of_mem _ hx)]
        simp
  have hreturn : Point.scalar '\r' ∉ lines.flatMap fun l => l.toList ++ [.scalar '\n'] := by
    intro hm
    obtain ⟨l, hl, hm⟩ := List.mem_flatMap.mp hm
    rcases List.mem_append.mp hm with hm | hm
    · exact (h l hl _ hm).2 rfl
    · simp at hm
  unfold physicalLines
  rw [htext, unifyFeeds_eq_self hreturn]
  clear htext hreturn hne
  induction lines with
  | nil => simp [cutAtFeeds]
  | cons l ls ih =>
    have hl : Point.scalar '\n' ∉ l.toList := fun hm => (h l List.mem_cons_self _ hm).1 rfl
    rw [List.flatMap_cons, List.append_assoc, List.singleton_append, cutAtFeeds_append,
      cutAtFeeds_of_not_mem hl, List.map_append, ih fun x hx => h x (List.mem_cons_of_mem _ hx)]
    rfl

/-! ## Shortened text -/

theorem mem_of_mem_dropTail {p : Point → Bool} {cs : List Point} {c : Point}
    (h : c ∈ dropTail p cs) : c ∈ cs := by
  unfold dropTail at h
  rw [List.mem_reverse] at h
  exact List.mem_reverse.mp ((List.dropWhile_suffix p).subset h)

theorem mem_of_mem_trimBy {p : Point → Bool} {cs : List Point} {c : Point} (h : c ∈ trimBy p cs) :
    c ∈ cs :=
  (List.dropWhile_suffix p).subset (mem_of_mem_dropTail h)

/-! ## Folded text -/

theorem not_isLineBreak_of_mem_foldLines (cs : List Point) :
    ∀ c ∈ foldLines cs, isLineBreak c = false := by
  have hspace : isLineBreak ' ' = false := by decide
  fun_induction foldLines cs <;> grind

theorem onOneLine_oneLine (s : Text) : OnOneLine (oneLine s) := by
  have hclass : ∀ c ∈ (oneLine s).toList, (!isLineBreak c) = true := by
    unfold oneLine
    rw [Text.toList_ofList]
    intro c hc
    rw [not_isLineBreak_of_mem_foldLines s.toList c hc]
    rfl
  exact onOneLine_of_class (by decide) (by decide) hclass

/-! ## Words -/

theorem isWord_of_mem_collapse {inGap : Bool} {cs : List Point} :
    ∀ c ∈ collapse inGap cs, isWord c = true := by
  have hscore : isWord '_' = true := by decide
  fun_induction collapse inGap cs <;> grind

theorem collapse_ne_nil {cs : List Point} (h : cs ≠ []) : collapse false cs ≠ [] := by
  rcases cs with _ | ⟨c, cs⟩
  · exact absurd rfl h
  · simp only [collapse]
    split <;> simp

theorem isWord_of_isDigit {c : Point} (h : isDigit c = true) : isWord c = true := by
  cases c with
  | scalar c =>
    rw [isDigit_scalar] at h
    simp [isWord, Char.isAlphanum, h]
  | lone half =>
    have hlow : ¬ 55296 + half.val ≤ 57 := by omega
    simp [isDigit, Point.toNat, hlow] at h

/-- A variable name is made of word characters if its fallback is. -/
theorem isWord_of_mem_identifier (label : Text) {fallback : Text}
    (hfallback : ∀ c ∈ fallback.toList, isWord c = true) (index : Nat) :
    ∀ c ∈ (identifier label fallback index).toList, isWord c = true := by
  unfold identifier
  split
  · intro c hc
    have hrepr : Text.toList (index : Int).repr = digitsOf index := by
      rw [← toList_repr]
      simp [Int.repr_eq_if]
    simp only [Text.toList_append, hrepr, List.mem_append] at hc
    rcases hc with (hc | hc) | hc
    · exact hfallback c hc
    · exact forall_mem_given rfl c hc
    · exact isWord_of_isDigit (isDigit_of_mem_digitsOf c hc)
  · rw [Text.toList_ofList]
    exact isWord_of_mem_collapse

theorem identifier_ne_empty (label : Text) {fallback : Text} (index : Int) :
    (identifier label fallback index).toList ≠ [] := by
  unfold identifier
  split
  · simp
  · rename_i h
    rw [Text.toList_ofList]
    apply collapse_ne_nil
    simpa using h

theorem onOneLine_of_word {s : Text} (h : ∀ c ∈ s.toList, isWord c = true) : OnOneLine s :=
  onOneLine_of_class (by decide) (by decide) h

theorem codeLine_of_word {s : Text} (hne : s.toList ≠ []) (h : ∀ c ∈ s.toList, isWord c = true) :
    CodeLine s := by
  refine ⟨onOneLine_of_word h, ?_⟩
  rcases hs : s.toList with _ | ⟨c, cs⟩
  · exact absurd hs hne
  · have hword : isWord c = true := h c (by simp [hs])
    have hindent : isIndent c = false := by
      rw [← Bool.not_eq_true]
      intro hindent
      simp only [isIndent, Bool.or_eq_true, beq_iff_eq] at hindent
      rcases hindent with (rfl | rfl) | rfl <;> exact absurd hword (by decide)
    have hhash : c ≠ '#' := by
      rintro rfl
      exact absurd hword (by decide)
    simp [isCode, hs, hindent, hhash]

end PipelineBoard.Text
