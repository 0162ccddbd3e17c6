-- How the head of a source text says in which encoding it is, and which texts an
-- interpreter that takes them for UTF-8 reads as they are written.
import PipelineBoard.Proofs.Text.Lines

namespace PipelineBoard.Text

/-! ## The null character -/

/-- The text holds a null character. -/
def HasNull (s : Text) : Prop := Point.scalar '\x00' ∈ s.toList

instance (s : Text) : Decidable (HasNull s) := inferInstanceAs (Decidable (_ ∈ _))

@[simp] theorem hasNull_append {s t : Text} : HasNull (s ++ t) ↔ HasNull s ∨ HasNull t := by
  unfold HasNull
  rw [Text.toList_append, List.mem_append]

/-- A null character of joined texts is one of a text, unless they are joined by
one. -/
theorem hasNull_intercalate {separator : Text} (h : ¬ HasNull separator) (texts : List Text) :
    HasNull (separator.intercalate texts) ↔ ∃ t ∈ texts, HasNull t := by
  induction texts with
  | nil => simp [HasNull]
  | cons t rest ih =>
    cases rest with
    | nil => simp
    | cons next others =>
      rw [Text.intercalate_cons_cons, hasNull_append, hasNull_append, ih]
      simp [h]

theorem not_hasNull_append {s t : Text} (hs : ¬ HasNull s) (ht : ¬ HasNull t) :
    ¬ HasNull (s ++ t) := by
  rw [hasNull_append]
  exact not_or_intro hs ht

theorem not_hasNull_of_class {p : Point → Bool} (hnull : p '\x00' = false) {s : Text}
    (h : ∀ c ∈ s.toList, p c = true) : ¬ HasNull s := by
  intro hmem
  have := h _ hmem
  rw [hnull] at this
  cases this

theorem not_hasNull_given {cs : List Char} (h : cs.all (fun c => c != '\x00') = true) :
    ¬ HasNull (String.ofList cs) := by
  unfold HasNull
  rw [toList_given, List.mem_map]
  rintro ⟨c, hc, hnull⟩
  cases hnull
  exact absurd (List.all_eq_true.mp h _ hc) (by decide)

/-- Folding takes line breaks only. -/
theorem null_mem_foldLines (cs : List Point) :
    Point.scalar '\x00' ∈ foldLines cs ↔ Point.scalar '\x00' ∈ cs := by
  have hbreak : isLineBreak '\x00' = false := by decide
  fun_induction foldLines cs <;> grind

@[simp] theorem hasNull_oneLine {s : Text} : HasNull (oneLine s) ↔ HasNull s := by
  unfold HasNull oneLine
  rw [Text.toList_ofList, null_mem_foldLines]

/-! ## Declared encodings -/

/-- The characters of the name of an encoding. -/
def isCodecChar (c : Point) : Bool := c.is Char.isAlphanum || c == '-' || c == '_' || c == '.'

/-- The name of the encoding that a declaration at the front gives: the word
`coding`, at once a colon or an equals sign, blanks, and the name. -/
def codecAtFront : List Point → Option (List Point)
  | .scalar 'c' :: .scalar 'o' :: .scalar 'd' :: .scalar 'i' :: .scalar 'n' :: .scalar 'g' :: mark :: rest =>
    if mark = ':' || mark = '=' then
      match (rest.dropWhile fun c => c == .scalar ' ' || c == .scalar '\t').takeWhile isCodecChar with
      | [] => none
      | codec => some codec
    else none
  | _ => none

/-- The name that the first declaration in a text gives. -/
def codecIn : List Point → Option (List Point)
  | [] => none
  | c :: rest => (codecAtFront (c :: rest)).or (codecIn rest)

/-- The encoding that a line declares. Only a comment declares one. -/
def declaredCodec (line : Text) : Option (List Point) :=
  match line.toList.dropWhile isIndent with
  | .scalar '#' :: comment => codecIn comment
  | _ => none

/-- The words of a name of an encoding: hyphens and underscores stand between
them, and case does not count. -/
def codecWords (codec : List Point) : List Text :=
  (((codec.map (Point.map Char.toLower)).splitOnP fun c => c == .scalar '-' || c == .scalar '_').filter fun word =>
    !word.isEmpty).map Text.ofList

/-- The names under which UTF-8 is registered, in words. -/
def utf8Names : List (List Text) := [
  ["utf", "8"], ["utf", "8", "sig"], ["utf8"], ["u8"], ["utf"], ["cp65001"], ["utf8", "ucs2"],
  ["utf8", "ucs4"]]

/-- The name of UTF-8: one that is registered, or `utf-8` with anything behind
it after a hyphen. -/
def namesUtf8 (codec : List Point) : Bool :=
  let plain := codec.map fun c : Point => if c = '_' then .scalar '-' else c.map Char.toLower
  (Text.toList "utf-8-").isPrefixOf plain || utf8Names.contains (codecWords codec)

/-- The text is read as it is written: it holds no null character, and neither
of its first two lines declares another encoding than UTF-8. -/
structure ReadAsWritten (s : Text) : Prop where
  noNull : ¬ HasNull s
  asUtf8 : ∀ line ∈ (physicalLines s).take 2, ∀ codec, declaredCodec line = some codec →
    namesUtf8 codec = true

end PipelineBoard.Text
