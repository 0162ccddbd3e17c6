-- How the header that names a file is read: its plain form between quotes, its
-- extended form as percent-encoded UTF-8. Read so, the header of a script gives back
-- the file name of its project.
import Mathlib.Data.List.Basic
import PipelineBoard.Http.Disposition
import PipelineBoard.Proofs.Script.FileName
import PipelineBoard.Proofs.Text.Utf8

namespace PipelineBoard

open Text

namespace Http

/-! ## Reading the header -/

/-- What stands before the file name in the plain form. -/
def plainFront : String := "attachment; filename=\""

/-- What stands before the file name in the extended form. -/
def extendedFront : String := "attachment; filename*=utf-8''"

/-- The text up to a quote, which ends the header. -/
def readQuoted? (cs : List Char) : Option String :=
  if cs.dropWhile (· != '"') = ['"'] then some (String.ofList (cs.takeWhile (· != '"'))) else none

/-- The text whose UTF-8 bytes the rest of the header stands for. -/
def readExtended? (cs : List Char) : Option String :=
  String.fromUTF8? (percentBytes cs).toByteArray

/-- The file name that a header gives in one of the two forms. -/
def readFileName? (header : String) : Option String :=
  match plainFront.toList.isPrefixOf? header.toList with
  | some rest => readQuoted? rest
  | none => (extendedFront.toList.isPrefixOf? header.toList).bind readExtended?

theorem isPrefixOf?_append (front rest : String) :
    front.toList.isPrefixOf? (front ++ rest).toList = some rest.toList := by
  rw [List.isPrefixOf?_eq_some_iff_append_eq, String.toList_append]

/-- The fronts part where one has a star and the other has none. -/
theorem plainFront_isPrefixOf?_extended (rest : String) :
    plainFront.toList.isPrefixOf? (extendedFront ++ rest).toList = none := by
  rw [String.toList_append]
  rfl

theorem readFileName?_plain (rest : String) :
    readFileName? (plainFront ++ rest) = readQuoted? rest.toList := by
  rw [readFileName?, isPrefixOf?_append]

theorem readFileName?_extended (rest : String) :
    readFileName? (extendedFront ++ rest) = readExtended? rest.toList := by
  rw [readFileName?, plainFront_isPrefixOf?_extended, isPrefixOf?_append]
  rfl

/-- A text without quotes is read up to the quote behind it. -/
theorem readQuoted?_of_no_quote {s : String} (h : '"' ∉ s.toList) :
    readQuoted? (s ++ "\"").toList = some s := by
  have hbefore : ∀ c ∈ s.toList, (c != '"') = true := by
    intro c hc
    rw [bne_iff_ne]
    rintro rfl
    exact h hc
  have hend : (s ++ "\"").toList = s.toList ++ ['"'] := String.toList_append
  unfold readQuoted?
  rw [hend, List.dropWhile_append_of_pos hbefore, List.takeWhile_append_of_pos hbefore]
  simp

theorem readExtended?_percentEncode (s : String) :
    readExtended? (percentEncode s).toList = some s := by
  have hbytes : (percentBytes (percentChars s.toList)).toByteArray = s.toByteArray := by
    rw [percentBytes_percentChars]
    exact String.toByteArray_ofList.symm.trans (by rw [String.ofList_toList])
  unfold readExtended? percentEncode
  rw [String.toList_ofList, hbytes, fromUTF8?_toByteArray]

/-! ## The header of a script -/

/-- Printable ASCII. -/
def isPlainAscii (c : Char) : Bool := ' ' ≤ c && c ≤ '~'

theorem isPlainAscii_of_isPathSafe (c : Char) (h : isPathSafe c = true) : isPlainAscii c = true := by
  delta isPathSafe Char.isAlphanum Char.isAlpha Char.isUpper Char.isLower Char.isDigit at h
  simp only [Bool.or_eq_true, Bool.and_eq_true, decide_eq_true_eq, beq_iff_eq] at h
  simp only [isPlainAscii, Bool.and_eq_true, decide_eq_true_eq, Char.le_def]
  rcases h with ((((((h | h) | h) | rfl) | rfl) | rfl) | rfl) | rfl
  · grind
  · grind
  · grind
  all_goals decide

/-- The file name of a script is the text of a string if the project name is. -/
theorem exists_fileName_eq (project : String) : ∃ fileName : String,
    Script.fileName project = fileName ∧ '"' ∉ fileName.toList := by
  obtain ⟨fileName, hname⟩ := isEncodable_iff.mp
    (Script.isEncodable_fileName (isEncodable_ofString project))
  refine ⟨fileName, hname, fun hquote => ?_⟩
  have hsafe := Script.isUnsafe_of_mem_fileName project (.scalar '"') (by
    rw [hname, toList_ofString]
    exact List.mem_map_of_mem hquote)
  exact absurd hsafe (by decide)

/-- A header has one of the two forms. A file name that needs no encoding is its
own encoding. -/
theorem attachment_eq (fileName : String) :
    attachment fileName = plainFront ++ (percentEncode fileName ++ "\"") ∧
        percentEncode fileName = fileName ∨
      attachment fileName = extendedFront ++ percentEncode fileName := by
  unfold attachment
  simp only
  split
  · rename_i hsame
    exact Or.inl ⟨by rw [hsame, ← String.append_assoc]; rfl, hsame⟩
  · exact Or.inr rfl

theorem isPlainAscii_of_mem_attachment (fileName : String) :
    ∀ c ∈ (attachment fileName).toList, isPlainAscii c = true := by
  have hgiven : ∀ {s : String}, s.toList.all isPlainAscii = true →
      ∀ c ∈ s.toList, isPlainAscii c = true := fun h => List.all_eq_true.mp h
  have hencoded : ∀ c ∈ (percentEncode fileName).toList, isPlainAscii c = true :=
    of_mem_percentEncode isPlainAscii_of_isPathSafe (by decide) (by decide) fileName
  have hplain : ∀ c ∈ plainFront.toList, isPlainAscii c = true := hgiven (by decide +kernel)
  have hextended : ∀ c ∈ extendedFront.toList, isPlainAscii c = true := hgiven (by decide +kernel)
  have hquote : ∀ c ∈ "\"".toList, isPlainAscii c = true := hgiven (by decide)
  intro c hc
  rcases attachment_eq fileName with ⟨heq, _⟩ | heq
  · rw [heq, String.toList_append, String.toList_append, List.mem_append, List.mem_append] at hc
    rcases hc with hc | hc | hc
    · exact hplain c hc
    · exact hencoded c hc
    · exact hquote c hc
  · rw [heq, String.toList_append, List.mem_append] at hc
    rcases hc with hc | hc
    · exact hextended c hc
    · exact hencoded c hc

/-- Whatever the project name, the header of its script is printable ASCII, and
reading it gives back the file name. What it holds between quotes holds no
quote. A project name has a header if it is a string of characters. -/
theorem a_header_gives_back_the_file_name (project : String) :
    ∃ header, disposition (Script.fileName project) = some header ∧
      (∀ c ∈ header.toList, ' ' ≤ c ∧ c ≤ '~') ∧
      (readFileName? header).map Text.ofString = some (Script.fileName project) ∧
      ∀ quoted, header = plainFront ++ (quoted ++ "\"") → '"' ∉ quoted.toList := by
  obtain ⟨fileName, hname, hquote⟩ := exists_fileName_eq project
  refine ⟨attachment fileName, ?_, fun c hc => ?_, ?_, ?_⟩
  · rw [disposition, hname, string?_ofString, Option.map_some]
  · simpa [isPlainAscii] using isPlainAscii_of_mem_attachment _ c hc
  · rw [hname]
    rcases attachment_eq fileName with ⟨heq, hsame⟩ | heq
    · rw [heq, readFileName?_plain, hsame, readQuoted?_of_no_quote hquote, Option.map_some]
    · rw [heq, readFileName?_extended, readExtended?_percentEncode, Option.map_some]
  · intro quoted hquoted
    rcases attachment_eq fileName with ⟨heq, hsame⟩ | heq
    · rw [heq, hsame, String.append_right_inj, String.append_left_inj] at hquoted
      rwa [← hquoted]
    · have hplain := isPrefixOf?_append plainFront (quoted ++ "\"")
      rw [← hquoted, heq, plainFront_isPrefixOf?_extended] at hplain
      cases hplain

theorem the_headers_of_two_projects :
    (∃ header, disposition (Script.fileName "mnist-v1.2") = some header ∧
      header = plainFront ++ ("mnist-v1.2.py" ++ "\"") ∧ '"' ∉ "mnist-v1.2.py".toList) ∧
    ∃ header, disposition (Script.fileName "50% \"Été\"") = some header ∧
      header = extendedFront ++ "50%25%20_%C3%89t%C3%A9_.py" ∧
      (readFileName? header).map Text.ofString = some (Text.ofString "50% _Été_.py") ∧
      '%' ∈ header.toList ∧ ' ' ≤ '%' ∧ '%' ≤ '~' := by
  have hname : Script.fileName "50% \"Été\"" = "50% _Été_.py" := by decide +kernel
  have hplain : disposition (Script.fileName "mnist-v1.2") =
      some (plainFront ++ ("mnist-v1.2.py" ++ "\"")) := by decide +kernel
  have hextended : disposition (Script.fileName "50% \"Été\"") =
      some (extendedFront ++ "50%25%20_%C3%89t%C3%A9_.py") := by decide +kernel
  obtain ⟨header, hheader, hascii, hread, _⟩ := a_header_gives_back_the_file_name "50% \"Été\""
  obtain ⟨other, hother, _, _, hquote⟩ := a_header_gives_back_the_file_name "mnist-v1.2"
  have hsame := Option.some.inj (hheader.symm.trans hextended)
  have hmark : '%' ∈ header.toList := by
    rw [hsame]
    decide +kernel
  have hotherSame := Option.some.inj (hother.symm.trans hplain)
  exact ⟨⟨other, hother, hotherSame, hquote _ hotherSame⟩,
    ⟨header, hheader, hsame, hread.trans (congrArg some hname), hmark, hascii _ hmark⟩⟩

end Http

end PipelineBoard
