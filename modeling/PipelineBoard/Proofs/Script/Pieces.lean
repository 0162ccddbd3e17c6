-- Pieces of a script: what a function on writers adds at any level, and which
-- lines of code are among it.
import PipelineBoard.Proofs.Json.Short
import PipelineBoard.Proofs.Text.Lines
import PipelineBoard.Script.Writer

namespace PipelineBoard.Writer

open Text

/-! ## Lines at a level -/

/-- A text as a line at a level; an empty text has no margin. -/
def indented (level : Int) (text : Text) : Text :=
  if text.isEmpty then "" else margin level ++ text

theorem margin_zero : margin 0 = "" := by decide

theorem margin_append_one {level : Int} (h : 0 ≤ level) :
    margin level ++ margin 1 = margin (level + 1) := by
  have hlevel : 4 * (level + 1).toNat = 4 * level.toNat + 4 * (1 : Int).toNat := by omega
  unfold margin
  rw [← Text.ofList_append, List.replicate_append_replicate, hlevel]

@[simp] theorem indented_zero (text : Text) : indented 0 text = text := by
  unfold indented
  split
  · rename_i h
    exact (Text.isEmpty_iff.mp h).symm
  · rw [margin_zero, Text.empty_append]

theorem indented_indented {level : Int} (h : 0 ≤ level) (text : Text) :
    indented level (indented 1 text) = indented (level + 1) text := by
  unfold indented
  by_cases ht : text.isEmpty = true
  · simp [ht]
  · have hne : (margin 1 ++ text).isEmpty = false := by
      rw [← Bool.not_eq_true, Text.isEmpty_iff, Text.append_eq_empty_iff]
      exact fun h => ht (Text.isEmpty_iff.mpr h.2)
    rw [if_neg ht, if_neg ht, hne, ← Text.append_assoc, margin_append_one h]
    rfl

theorem isCode_indented (level : Int) (text : Text) : isCode (indented level text) = isCode text := by
  unfold indented
  split
  · rename_i h
    rw [Text.isEmpty_iff.mp h]
  · have hmargin : ∀ n (cs : List Point),
        (List.replicate n (Point.scalar ' ') ++ cs).dropWhile isIndent = cs.dropWhile isIndent := by
      intro n cs
      induction n with
      | zero => rfl
      | succ n ih =>
        rw [List.replicate_succ, List.cons_append, List.dropWhile_cons, ih]
        rfl
    unfold isCode margin
    rw [Text.toList_append, Text.toList_ofList, hmargin]

theorem onOneLine_indented (level : Int) {text : Text} (h : OnOneLine text) :
    OnOneLine (indented level text) := by
  unfold indented
  split
  · exact onOneLine_given rfl
  · have hmargin : OnOneLine (margin level) := by
      unfold margin
      rw [onOneLine_ofList]
      intro c hc
      rw [List.eq_of_mem_replicate hc]
      decide
    exact onOneLine_append.mpr ⟨hmargin, h⟩

/-- A text that is given in full, one level deep. -/
theorem indented_given {s : String} (h : s ≠ "") :
    indented 1 s = (("    " ++ s : String) : Text) := by
  have hsome : Text.isEmpty s = false := by
    rw [← Bool.not_eq_true, Text.isEmpty_iff, Text.ofString_inj]
    exact h
  rw [indented, hsome, Text.ofString_append]
  rfl

/-! ## What a piece adds -/

/-- From any level that is not negative, the piece adds the texts as lines at
that level and comes back to it. The writing fails at every such level or at
none. -/
def Adds (piece : Writer → Writer) (texts : List Text) : Prop :=
  ∃ fails : Bool, ∀ w : Writer, 0 ≤ w.level →
    piece w = {
      lines := w.lines ++ texts.map (indented w.level), level := w.level,
      failed := w.failed || fails }

theorem adds_line (text : Text) : Adds (line text) [text] := by
  refine ⟨false, fun w _ => ?_⟩
  rw [Bool.or_false]
  rfl

theorem adds_nothing : Adds (fun w => w) [] := by
  refine ⟨false, fun w _ => ?_⟩
  simp

theorem adds_showing (value : Json) : Adds (showing value) [] := by
  refine ⟨!value.isShort, fun w _ => ?_⟩
  simp [showing]

theorem Adds.andThen {first second : Writer → Writer} {texts more : List Text}
    (h1 : Adds first texts) (h2 : Adds second more) :
    Adds (fun w => second (first w)) (texts ++ more) := by
  obtain ⟨fails, h1⟩ := h1
  obtain ⟨fails', h2⟩ := h2
  refine ⟨fails || fails', fun w hw => ?_⟩
  have hlevel : 0 ≤ (first w).level := by rwa [h1 w hw]
  dsimp only
  rw [h2 (first w) hlevel, h1 w hw]
  simp only [List.map_append, List.append_assoc, Bool.or_assoc]

theorem adds_all (texts : List Text) : Adds (all texts) texts := by
  induction texts with
  | nil => exact adds_nothing
  | cons text texts ih => exact (adds_line text).andThen ih

theorem Adds.block (heading : Text) {body : Writer → Writer} {texts : List Text}
    (h : Adds body texts) : Adds (block heading body) (heading :: texts.map (indented 1)) := by
  obtain ⟨fails, h⟩ := h
  refine ⟨fails, fun w hw => ?_⟩
  have hdeeper : 0 ≤ (w.line heading).deeper.level := by
    simp only [deeper, level_line]
    omega
  have hback : max 0 (w.level + 1 - 1) = w.level := by omega
  have htexts : texts.map (indented (w.level + 1)) =
      (texts.map (indented 1)).map (indented w.level) := by
    rw [List.map_map]
    exact List.map_congr_left fun t _ => (indented_indented hw t).symm
  unfold Writer.block
  rw [h _ hdeeper]
  simp only [deeper, back, line, hback, htexts, List.map_cons, List.append_assoc]
  rfl

/-- What a piece writes from nothing. -/
theorem Adds.lines_eq {piece : Writer → Writer} {texts : List Text} (h : Adds piece texts) :
    (piece {}).lines = texts := by
  obtain ⟨fails, h⟩ := h
  have hsame : indented 0 = id := funext indented_zero
  rw [h {} (by decide)]
  simp [hsame]

/-! ## The values that a piece shows -/

/-- The piece shows these values: the writing fails just if one of them cannot
be written. -/
def Shows (piece : Writer → Writer) (values : List Json) : Prop :=
  ∀ w : Writer, (piece w).failed = (w.failed || !Json.allShort values)

theorem shows_line (text : Text) : Shows (line text) [] := by
  intro w
  simp [line, Json.allShort]

theorem shows_nothing : Shows (fun w => w) [] := by
  intro w
  simp [Json.allShort]

theorem shows_showing (value : Json) : Shows (showing value) [value] := by
  intro w
  simp [showing, Json.allShort]

theorem Shows.andThen {first second : Writer → Writer} {values more : List Json}
    (h1 : Shows first values) (h2 : Shows second more) :
    Shows (fun w => second (first w)) (values ++ more) := by
  intro w
  rw [h2 (first w), h1 w, Json.allShort_append, Bool.not_and, Bool.or_assoc]

theorem shows_all (texts : List Text) : Shows (all texts) [] := by
  induction texts with
  | nil => exact shows_nothing
  | cons text texts ih => exact (shows_line text).andThen ih

/-! ## The code that a piece prints -/

/-- The piece adds lines that stay physical lines, and these are the lines of
code among them. -/
def Prints (piece : Writer → Writer) (code : List Text) : Prop :=
  ∃ texts, Adds piece texts ∧ (∀ t ∈ texts, OnOneLine t) ∧ texts.filter isCode = code

theorem prints_all {texts : List Text} (h : ∀ t ∈ texts, CodeLine t) : Prints (all texts) texts :=
  ⟨texts, adds_all texts, fun t ht => (h t ht).1, List.filter_eq_self.mpr fun t ht => (h t ht).2⟩

theorem Prints.of_eq {piece : Writer → Writer} {code other : List Text} (h : Prints piece code)
    (heq : code = other) : Prints piece other := heq ▸ h

/-- Comments print no code. -/
theorem prints_comments {texts : List Text} (h : ∀ t ∈ texts, OnOneLine t ∧ isCode t = false) :
    Prints (all texts) [] := by
  refine ⟨texts, adds_all texts, fun t ht => (h t ht).1, ?_⟩
  rw [List.filter_eq_nil_iff]
  intro t ht
  simp [(h t ht).2]

theorem prints_comment (text : Text) (h : OnOneLine text) : Prints (comment text) [] := by
  refine ⟨["# " ++ text], adds_line _, ?_, by simp⟩
  intro t ht
  rw [List.mem_singleton.mp ht]
  exact onOneLine_append.mpr ⟨onOneLine_given rfl, h⟩

theorem prints_blank : Prints blank [] := by
  refine ⟨[""], adds_line "", ?_, rfl⟩
  intro t ht
  rw [List.mem_singleton.mp ht]
  exact onOneLine_given rfl

theorem prints_line (text : Text) (h : CodeLine text) : Prints (line text) [text] := by
  refine ⟨[text], adds_line text, ?_, by simp [h.2]⟩
  intro t ht
  rw [List.mem_singleton.mp ht]
  exact h.1

theorem prints_nothing : Prints (fun w => w) [] := ⟨[], adds_nothing, by simp, rfl⟩

theorem prints_showing (value : Json) : Prints (showing value) [] :=
  ⟨[], adds_showing value, by simp, rfl⟩

theorem Prints.andThen {first second : Writer → Writer} {code more : List Text}
    (h1 : Prints first code) (h2 : Prints second more) :
    Prints (fun w => second (first w)) (code ++ more) := by
  obtain ⟨texts, hadds, hlines, hcode⟩ := h1
  obtain ⟨texts', hadds', hlines', hcode'⟩ := h2
  refine ⟨texts ++ texts', hadds.andThen hadds', ?_, ?_⟩
  · intro t ht
    rcases List.mem_append.mp ht with ht | ht
    · exact hlines t ht
    · exact hlines' t ht
  · rw [List.filter_append, hcode, hcode']

theorem Prints.block {body : Writer → Writer} {code : List Text} (h : Prints body code)
    (heading : Text) (hheading : CodeLine heading) :
    Prints (block heading body) (heading :: code.map (indented 1)) := by
  obtain ⟨texts, hadds, hlines, hbody⟩ := h
  refine ⟨_, hadds.block heading, ?_, ?_⟩
  · intro t ht
    rcases List.mem_cons.mp ht with rfl | ht
    · exact hheading.1
    · obtain ⟨u, hu, rfl⟩ := List.mem_map.mp ht
      exact onOneLine_indented 1 (hlines u hu)
  · rw [List.filter_cons_of_pos hheading.2, List.filter_map, ← hbody]
    have hsame : isCode ∘ indented 1 = isCode := funext (isCode_indented 1)
    rw [hsame]

/-- The lines that a piece printed from nothing stay physical lines. -/
theorem Prints.onOneLine {piece : Writer → Writer} {code : List Text} (h : Prints piece code) :
    ∀ t ∈ (piece {}).lines, OnOneLine t := by
  obtain ⟨texts, hadds, hlines, _⟩ := h
  rw [hadds.lines_eq]
  exact hlines

/-- The code of a text that a piece printed from nothing. -/
theorem Prints.codeLines_joined {piece : Writer → Writer} {code : List Text}
    (h : Prints piece code) (hne : code ≠ []) : codeLines ((piece {}).joined ++ "\n") = code := by
  obtain ⟨texts, hadds, hlines, rfl⟩ := h
  have hsome : texts ≠ [] := by
    rintro rfl
    exact hne rfl
  unfold Writer.joined codeLines
  rw [hadds.lines_eq, physicalLines_lines hsome hlines, List.filter_append]
  simp [isCode_empty]

end PipelineBoard.Writer
