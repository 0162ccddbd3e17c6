-- How an interpreter reads a literal between double quotes, by rules that are
-- not those of JSON: it first finds the closing quote, and then resolves escapes,
-- most of which no script writes. A quoted text is such a literal for itself.
import PipelineBoard.Proofs.Text.Quoted

namespace PipelineBoard.Text

/-! ## Where a literal ends -/

/-- A null character ends a source, and a carriage return is gone once the ends
of lines are one. -/
def isForeign (c : Point) : Bool := c == '\x00' || c == '\r'

/-- What stands before the closing quote, and what comes after it. A backslash
takes the next character with it, and a line feed without one ends the line
too soon. -/
def closing? : List Point → Option (List Point × List Point)
  | [] => none
  | .scalar '"' :: rest => some ([], rest)
  | .scalar '\\' :: c :: rest =>
    if isForeign c then none else (closing? rest).map fun (body, after) => (.scalar '\\' :: c :: body, after)
  | c :: rest =>
    if isForeign c || c == '\n' then none
    else (closing? rest).map fun (body, after) => (c :: body, after)

/-! ## What it says -/

/-- The escapes of one letter, with the code points that they stand for. -/
def letterEscapes : List (Point × Nat) := [
  ('\\', 92), ('\'', 39), ('"', 34), ('a', 7), ('b', 8), ('f', 12), ('n', 10), ('r', 13), ('t', 9),
  ('v', 11)]

/-- A code point in so many hexadecimal digits, all of which must be there. -/
def hexEscape? (count : Nat) (cs : List Point) : Option (List Nat × Nat) := do
  let digits := cs.take count
  let point ← hexNumber? digits
  if digits.length = count && point < 0x110000 then some ([point], 1 + count) else none

/-- A code point by its name between braces. -/
def namedEscape? (named : Text → Option Nat) : List Point → Option (List Nat × Nat)
  | .scalar '{' :: rest =>
    let name := rest.takeWhile (· != .scalar '}')
    if name.length < rest.length then
      (named (Text.ofList name)).map fun point => ([point], name.length + 3)
    else none
  | _ => none

/-- The code points of an escape, and how many characters it takes after the
backslash. A line that a backslash continues adds nothing, one to three octal
digits are a code point, and a backslash before any other character stands for
itself. -/
def escape? (named : Text → Option Nat) : List Point → Option (List Nat × Nat)
  | [] => none
  | c :: rest =>
    let octal := ((c :: rest).take 3).takeWhile fun d => 48 ≤ d.toNat && d.toNat ≤ 55
    if c = '\n' then some ([], 1)
    else if !octal.isEmpty then
      some ([octal.foldl (fun point d => 8 * point + digitValue d) 0], octal.length)
    else if c = 'x' then hexEscape? 2 rest
    else if c = 'u' then hexEscape? 4 rest
    else if c = 'U' then hexEscape? 8 rest
    else if c = 'N' then namedEscape? named rest
    else match letterEscapes.lookup c with
      | some point => some ([point], 1)
      | none => some ([92, c.toNat], 1)

/-- The code points of the text between the quotes, past so many characters
that belong to an escape. -/
def resolve? (named : Text → Option Nat) : Nat → List Point → Option (List Nat)
  | _, [] => some []
  | skip + 1, _ :: rest => resolve? named skip rest
  | 0, c :: rest =>
    if c = '\\' then do
      let (points, taken) ← escape? named rest
      let others ← resolve? named taken rest
      some (points ++ others)
    else (resolve? named 0 rest).map (c.toNat :: ·)

/-- The code points of the literal at the front of a source, and what comes
after it. Three double quotes open another kind of literal. -/
def readLiteral? (named : Text → Option Nat) : List Point → Option (List Nat × List Point)
  | .scalar '"' :: .scalar '"' :: .scalar '"' :: _ => none
  | .scalar '"' :: rest => do
    let (body, after) ← closing? rest
    let points ← resolve? named 0 body
    some (points, after)
  | _ => none

/-- Unlike a JSON text, a literal may hold octal digits, a continued line and a
backslash that escapes nothing. -/
example : readLiteral? (fun _ => none) (Text.toList "\"\\101\\x42\\\n\\/\")") =
    some ([65, 66, 92, 47], [.scalar ')']) := by decide

/-- The code points of a text. -/
def points (s : Text) : List Nat := s.toList.map Point.toNat

/-! ## A quoted text ends at its closing quote -/

/-- A character that a literal holds as it is. -/
def isInner (c : Point) : Bool := c != '"' && c != '\\' && c != '\n' && !isForeign c

theorem closing?_cons {c : Point} (h : isInner c = true) (rest : List Point) :
    closing? (c :: rest) = (closing? rest).map fun found => (c :: found.1, found.2) := by
  simp only [isInner, Bool.and_eq_true, bne_iff_ne, ne_eq, Bool.not_eq_true'] at h
  obtain ⟨⟨⟨hquote, hback⟩, hfeed⟩, hforeign⟩ := h
  rw [closing?]
  · simp [hforeign, hfeed]
  · exact hquote
  · intro _ _ heq
    exact absurd heq hback

theorem closing?_append {cs : List Point} (h : ∀ c ∈ cs, isInner c = true) (rest : List Point) :
    closing? (cs ++ rest) = (closing? rest).map fun found => (cs ++ found.1, found.2) := by
  induction cs with
  | nil => simp
  | cons c cs ih =>
    rw [List.cons_append, closing?_cons (h c List.mem_cons_self),
      ih fun d hd => h d (List.mem_cons_of_mem _ hd), Option.map_map]
    rfl

theorem closing?_backslash {c : Point} (h : isForeign c = false) (rest : List Point) :
    closing? (.scalar '\\' :: c :: rest) =
      (closing? rest).map fun found => (.scalar '\\' :: c :: found.1, found.2) := by
  simp [closing?, h]

theorem isInner_of_standsAsItIs {c : Point} (h : StandsAsItIs c) : isInner c = true := by
  have hne : ∀ d : Point, d.toNat < 32 → c ≠ d := by
    rintro d hd rfl
    exact absurd h.notControl (by omega)
  have hfeed := hne '\n' (by decide)
  have hnull := hne '\x00' (by decide)
  have hreturn := hne '\r' (by decide)
  simp [isInner, isForeign, h.notQuote, h.notBackslash, hfeed, hnull, hreturn]

theorem isInner_of_mem_hexDigits (count n : Nat) : ∀ c ∈ hexDigits count n, isInner c = true :=
  of_mem_hexDigits (by decide) count n

/-- No escape ends the literal before its time. -/
theorem closing?_escapeDouble (c : Point) (rest : List Point) :
    closing? (escapeDouble c ++ rest) =
      (closing? rest).map fun found => (escapeDouble c ++ found.1, found.2) := by
  generalize escapeDouble c = written, escapedAs_escapeDouble c = escaped
  cases escaped with
  | @short letter h =>
    have hletters : ∀ escape ∈ shortEscapes, isForeign escape.1 = false := by decide
    exact closing?_backslash (hletters _ h) rest
  | number h =>
    have hu : isForeign 'u' = false := by decide
    have hdigits := closing?_append (isInner_of_mem_hexDigits 4 c.toNat) rest
    rw [List.cons_append, List.cons_append, closing?_backslash hu, hdigits, Option.map_map]
    rfl
  | itself h => exact closing?_cons (isInner_of_standsAsItIs h) rest

theorem closing?_escaped (cs rest : List Point) :
    closing? (cs.flatMap escapeDouble ++ .scalar '"' :: rest) = some (cs.flatMap escapeDouble, rest) := by
  induction cs with
  | nil => simp [closing?]
  | cons c cs ih =>
    rw [List.flatMap_cons, List.append_assoc, closing?_escapeDouble, ih]
    rfl

/-! ## A quoted text says what it quotes -/

theorem resolve?_skip (named : Text → Option Nat) (cs rest : List Point) :
    resolve? named cs.length (cs ++ rest) = resolve? named 0 rest := by
  induction cs with
  | nil => rfl
  | cons c cs ih => exact ih

theorem resolve?_itself (named : Text → Option Nat) {c : Point} (h : c ≠ '\\') (rest : List Point) :
    resolve? named 0 (c :: rest) = (resolve? named 0 rest).map (c.toNat :: ·) := by
  rw [resolve?, if_neg h]

/-- An escape is resolved on its own. -/
theorem resolve?_backslash {named : Text → Option Nat} {cs : List Point} {point : Nat}
    (rest : List Point) (h : escape? named (cs ++ rest) = some ([point], cs.length)) :
    resolve? named 0 (.scalar '\\' :: cs ++ rest) = (resolve? named 0 rest).map (point :: ·) := by
  rw [List.cons_append, resolve?, if_pos rfl, h]
  simp only [Option.bind_eq_bind, Option.bind_some, resolve?_skip, List.singleton_append]
  cases resolve? named 0 rest <;> rfl

theorem hexEscape?_hexDigits {count n : Nat} (h : n < 16 ^ count) (hpoint : n < 0x110000)
    (rest : List Point) : hexEscape? count (hexDigits count n ++ rest) = some ([n], 1 + count) := by
  have htake : (hexDigits count n ++ rest).take count = hexDigits count n := by
    rw [List.take_append_of_le_length (by rw [length_hexDigits]), List.take_of_length_le]
    rw [length_hexDigits]
  unfold hexEscape?
  simp [htake, hexNumber?_hexDigits_of_lt h, length_hexDigits, hpoint]

/-- The interpreter knows every short escape, and means the same by it. -/
theorem escape?_letter (named : Text → Option Nat) (rest : List Point) :
    ∀ escape ∈ shortEscapes, escape? named (escape.1 :: rest) = some ([escape.2.toNat], 1) := by
  intro escape h
  simp only [shortEscapes, List.mem_cons, List.not_mem_nil, or_false] at h
  rcases h with rfl | rfl | rfl | rfl | rfl | rfl | rfl <;> rfl

theorem escape?_number (named : Text → Option Nat) {n : Nat} (h : n < 32) (rest : List Point) :
    escape? named (.scalar 'u' :: hexDigits 4 n ++ rest) = some ([n], 5) := by
  have hsize : n < 16 ^ 4 := by omega
  have hhex := hexEscape?_hexDigits hsize (by omega) rest
  exact hhex

theorem resolve?_escapeDouble (named : Text → Option Nat) (c : Point) (rest : List Point) :
    resolve? named 0 (escapeDouble c ++ rest) = (resolve? named 0 rest).map (c.toNat :: ·) := by
  generalize escapeDouble c = written, escapedAs_escapeDouble c = escaped
  cases escaped with
  | short h => exact resolve?_backslash rest (escape?_letter named rest _ h)
  | number h =>
    apply resolve?_backslash rest
    rw [escape?_number named h, List.length_cons, length_hexDigits]
  | itself h => exact resolve?_itself named h.notBackslash rest

theorem resolve?_escaped (named : Text → Option Nat) (cs : List Point) :
    resolve? named 0 (cs.flatMap escapeDouble) = some (cs.map Point.toNat) := by
  induction cs with
  | nil => rfl
  | cons c cs ih =>
    rw [List.flatMap_cons, resolve?_escapeDouble, ih]
    rfl

/-- The first escape of a text starts with no quote. -/
theorem head?_escapeDouble_append (c : Point) (rest : List Point) :
    (escapeDouble c ++ rest).head? ≠ some (.scalar '"') := by
  generalize escapeDouble c = written, escapedAs_escapeDouble c = escaped
  cases escaped with
  | short _ => simp
  | number _ => simp
  | itself h => simpa using h.notQuote

/-- A quoted text is a literal that ends at its closing quote and says the text.
Only an empty one could be taken for the front of three quotes. -/
theorem readLiteral?_doubleQuoted (named : Text → Option Nat) {cs rest : List Point}
    (h : cs = [] → rest.head? ≠ some (.scalar '"')) :
    readLiteral? named (doubleQuoted cs ++ rest) = some (cs.map Point.toNat, rest) := by
  have hquoted : doubleQuoted cs ++ rest = .scalar '"' :: (cs.flatMap escapeDouble ++ .scalar '"' :: rest) := by
    simp [doubleQuoted]
  rw [hquoted, readLiteral?]
  · simp [closing?_escaped, resolve?_escaped]
  · intro others heq
    rcases cs with _ | ⟨c, cs⟩
    · rw [List.flatMap_nil, List.nil_append, List.cons.injEq] at heq
      exact h rfl (by rw [heq.2]; rfl)
    · rw [List.flatMap_cons, List.append_assoc] at heq
      apply head?_escapeDouble_append c (cs.flatMap escapeDouble ++ .scalar '"' :: rest)
      rw [heq]
      rfl

example : readLiteral? (fun _ => none) (doubleQuoted (Text.toList "\"\\\n\x00\x7fé") ++ [.scalar ')']) =
    some ([34, 92, 10, 0, 127, 233], [.scalar ')']) := by decide

end PipelineBoard.Text
