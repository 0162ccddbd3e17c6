-- The names that a line of code binds and those that it reads. A line is cut into
-- tokens first, character by character, so that what stands between quotes or
-- behind a hash is not taken for code.
import PipelineBoard.Proofs.Json.Printer

namespace PipelineBoard.Script

open Text

/-! ## Tokens -/

/-- A name, the name of an attribute behind its point, or another sign. What
stands between quotes is no token. -/
inductive Token where
  | name (word : Text)
  | member (word : Text)
  | sign (c : Point)
deriving DecidableEq

/-- Where a character stands: between words, perhaps behind a point, inside a
word with the letters before it, between quotes, behind a backslash there, or in
a comment. -/
inductive Mode where
  | code (dotted : Bool)
  | word (dotted : Bool) (letters : List Point)
  | quoted (quote : Point)
  | escaped (quote : Point)
  | comment
deriving DecidableEq

def wordToken (dotted : Bool) (letters : List Point) : Token :=
  if dotted then .member (Text.ofList letters) else .name (Text.ofList letters)

/-- The tokens that a character between words ends, and where the next one
stands. -/
def enter (dotted : Bool) (c : Point) : List Token × Mode :=
  if isWord c then ([], .word dotted [c])
  else if c = '"' || c = '\'' then ([], .quoted c)
  else if c = '#' then ([], .comment)
  else if c = '.' then ([], .code true)
  else if c = ' ' then ([], .code dotted)
  else ([.sign c], .code false)

/-- The tokens that a character ends, and where the next one stands. -/
def step : Mode → Point → List Token × Mode
  | .code dotted, c => enter dotted c
  | .word dotted letters, c =>
    if isWord c then ([], .word dotted (letters ++ [c]))
    else (wordToken dotted letters :: (enter false c).1, (enter false c).2)
  | .quoted quote, c =>
    if c = quote then ([], .code false)
    else if c = '\\' then ([], .escaped quote)
    else ([], .quoted quote)
  | .escaped quote, _ => ([], .quoted quote)
  | .comment, _ => ([], .comment)

/-- The tokens of a text, and where its end stands. -/
def scan (mode : Mode) : List Point → List Token × Mode
  | [] => ([], mode)
  | c :: rest =>
    ((step mode c).1 ++ (scan (step mode c).2 rest).1, (scan (step mode c).2 rest).2)

/-- The token that the end of a line ends. -/
def lastToken : Mode → List Token
  | .word dotted letters => [wordToken dotted letters]
  | _ => []

/-- The tokens of the rest of a line. -/
def lex (mode : Mode) (cs : List Point) : List Token :=
  (scan mode cs).1 ++ lastToken (scan mode cs).2

def tokens (line : Text) : List Token := lex (.code false) line.toList

/-! ## Uses -/

/-- The names that a statement binds, and those that it reads. -/
structure Uses where
  binds : List Text
  reads : List Text
deriving DecidableEq

def Token.name? : Token → Option Text
  | .name word => some word
  | _ => none

def names (toks : List Token) : List Text := toks.filterMap Token.name?

/-- The uses of names as targets: one that stands alone is bound, and one whose
attribute is set is read. -/
def targets : List Token → Uses
  | [] => ⟨[], []⟩
  | .name word :: .member _ :: rest => ⟨(targets rest).binds, word :: (targets rest).reads⟩
  | .name word :: rest => ⟨word :: (targets rest).binds, (targets rest).reads⟩
  | _ :: rest => targets rest

/-- An assignment with an operator, which reads its targets too. -/
def isAugmented (left : List Token) : Bool :=
  left.any fun token =>
    match token with
    | .sign c => c != ','
    | _ => false

/-- Neither an equals sign nor the bracket of a call, which comes first where
an equals sign gives an argument. -/
def isTarget (token : Token) : Bool := token != .sign '=' && token != .sign '('

/-- The uses of a statement that is no assignment. Keywords and the names of
arguments count as read. -/
def plainUses (toks : List Token) : Uses :=
  match toks with
  | .name word :: rest =>
    if word = "import" then ⟨(names rest).getLast?.toList, []⟩
    else if word = "from" then ⟨names (rest.dropWhile (· != .name "import")).tail, []⟩
    else if word = "class" then ⟨(names rest).take 1, (names rest).drop 1⟩
    else if word = "def" then ⟨names rest, []⟩
    else if word = "for" then
      ⟨names (rest.takeWhile (· != .name "in")), names (rest.dropWhile (· != .name "in")).tail⟩
    else ⟨[], names toks⟩
  | _ => ⟨[], names toks⟩

/-- The uses of a statement. -/
def statementUses (toks : List Token) : Uses :=
  match toks.dropWhile isTarget with
  | .sign (.scalar '=') :: value =>
    let left := toks.takeWhile isTarget
    let again := if isAugmented left then (targets left).binds else []
    ⟨(targets left).binds, (targets left).reads ++ again ++ names value⟩
  | _ => plainUses toks

def uses (line : Text) : Uses := statementUses (tokens line)

theorem uses_given {cs : List Char} {u : Uses}
    (h : statementUses (lex (.code false) (cs.map Point.scalar)) = u) : uses (String.ofList cs) = u := by
  unfold uses tokens
  rw [toList_given]
  exact h

example : uses "train_ds, val_ds = split(data, \"a = b\", seed=1)  # TODO: torch" =
    ⟨["train_ds", "val_ds"], ["split", "data", "seed", "1"]⟩ := by decide

example : uses "import torch.nn as nn" = ⟨["nn"], []⟩ := by decide

example : uses "self.net = nn.Linear(7)" = ⟨[], ["self", "nn", "7"]⟩ := by decide

example : uses "total += y.size(0)" = ⟨["total"], ["total", "y", "0"]⟩ := by decide

/-! ## Tokens of texts in a row -/

theorem lex_cons (mode : Mode) (c : Point) (cs : List Point) :
    lex mode (c :: cs) = (step mode c).1 ++ lex (step mode c).2 cs := by
  simp [lex, scan]

theorem lex_append (mode : Mode) (cs rest : List Point) :
    lex mode (cs ++ rest) = (scan mode cs).1 ++ lex (scan mode cs).2 rest := by
  induction cs generalizing mode with
  | nil => simp [scan]
  | cons c cs ih => rw [List.cons_append, lex_cons, ih, scan, List.append_assoc]

/-- A text that ends between words is cut apart from what follows. -/
theorem tokens_append {front : Text} {toks : List Token} {dotted : Bool}
    (h : scan (.code false) front.toList = (toks, .code dotted)) (rest : Text) :
    tokens (front ++ rest) = toks ++ lex (.code dotted) rest.toList := by
  unfold tokens
  rw [Text.toList_append, lex_append, h]

theorem scan_given {cs : List Char} {mode : Mode} {found : List Token × Mode}
    (h : scan mode (cs.map Point.scalar) = found) :
    scan mode (Text.toList (String.ofList cs)) = found := by
  rw [toList_given, h]

section

variable {c : Point} {rest : List Point}

/-- The end of a word. -/
theorem lex_word_end (dotted : Bool) (letters : List Point) (hc : isWord c = false) :
    lex (.word dotted letters) (c :: rest) =
      wordToken dotted letters :: lex (.code false) (c :: rest) := by
  rw [lex_cons, lex_cons]
  simp [step, hc]

theorem lex_word (dotted : Bool) (letters : List Point) {cs : List Point}
    (h : ∀ d ∈ cs, isWord d = true) (hc : isWord c = false) :
    lex (.word dotted letters) (cs ++ c :: rest) =
      wordToken dotted (letters ++ cs) :: lex (.code false) (c :: rest) := by
  induction cs generalizing letters with
  | nil => rw [List.nil_append, List.append_nil, lex_word_end dotted letters hc]
  | cons d cs ih =>
    have hd : isWord d = true := h d List.mem_cons_self
    rw [List.cons_append, lex_cons]
    simp only [step, hd, if_true, List.nil_append]
    rw [ih _ fun e he => h e (List.mem_cons_of_mem _ he)]
    simp

/-- A word at the front of a line. -/
theorem lex_first_word {word : Text} (hne : word.toList ≠ [])
    (h : ∀ d ∈ word.toList, isWord d = true) (hc : isWord c = false) :
    lex (.code false) (word.toList ++ c :: rest) = .name word :: lex (.code false) (c :: rest) := by
  obtain ⟨d, cs, hword⟩ := List.exists_cons_of_ne_nil hne
  have hd : isWord d = true := h d (by simp [hword])
  have hcs : ∀ e ∈ cs, isWord e = true := fun e he => h e (by simp [hword, he])
  rw [hword, List.cons_append, lex_cons]
  simp only [step, enter, hd, if_true, List.nil_append]
  rw [lex_word false [d] hcs hc, List.singleton_append, ← hword]
  simp [wordToken]

/-! ## Tokens of quoted texts -/

theorem lex_quoted_cons {d : Point} (hquote : d ≠ '"') (hback : d ≠ '\\') :
    lex (.quoted '"') (d :: rest) = lex (.quoted '"') rest := by
  rw [lex_cons]
  simp [step, hquote, hback]

/-- The character behind a backslash does not end a quoted text. -/
theorem lex_backslash (d : Point) :
    lex (.quoted '"') (.scalar '\\' :: d :: rest) = lex (.quoted '"') rest := by
  rw [lex_cons, lex_cons]
  rfl

theorem lex_hexDigits (count n : Nat) :
    lex (.quoted '"') (hexDigits count n ++ rest) = lex (.quoted '"') rest := by
  have hclear : ∀ d ∈ hexDigits count n, (d != '"' && d != '\\') = true :=
    of_mem_hexDigits (by decide) count n
  generalize hexDigits count n = digits at hclear ⊢
  induction digits with
  | nil => rfl
  | cons d digits ih =>
    have hd := hclear d List.mem_cons_self
    simp only [Bool.and_eq_true, bne_iff_ne] at hd
    rw [List.cons_append, lex_quoted_cons hd.1 hd.2]
    exact ih fun e he => hclear e (List.mem_cons_of_mem _ he)

/-- What a quoted text escapes does not end it. -/
theorem lex_escapeDouble (d : Point) :
    lex (.quoted '"') (escapeDouble d ++ rest) = lex (.quoted '"') rest := by
  unfold escapeDouble
  split_ifs with hquote hback
  case neg => exact lex_quoted_cons hquote hback
  iterate 7 exact lex_backslash _
  exact (lex_backslash 'u').trans (lex_hexDigits 4 d.toNat)

/-- A quoted text is no token. -/
theorem lex_doubleQuoted (cs : List Point) :
    lex (.code false) (doubleQuoted cs ++ rest) = lex (.code false) rest := by
  have hquoted : lex (.quoted '"') (cs.flatMap escapeDouble ++ .scalar '"' :: rest) =
      lex (.code false) rest := by
    induction cs with
    | nil =>
      rw [List.flatMap_nil, List.nil_append, lex_cons]
      rfl
    | cons d cs ih => rw [List.flatMap_cons, List.append_assoc, lex_escapeDouble, ih]
  unfold doubleQuoted
  rw [List.cons_append, List.cons_append, List.append_assoc, lex_cons, List.singleton_append]
  exact hquoted

/-! ## Tokens of numbers -/

/-- No name but a piece of a number. -/
def Token.InNumber : Token → Prop
  | .name word => ∀ c ∈ word.toList, isNumeral c = true
  | _ => True

theorem inNumber_wordToken (dotted : Bool) {letters : List Point}
    (h : ∀ d ∈ letters, isNumeral d = true) : (wordToken dotted letters).InNumber := by
  cases dotted with
  | true => exact trivial
  | false =>
    intro d hd
    rw [Text.toList_ofList] at hd
    exact h d hd

/-- What a character of a number that is no letter and no digit comes to. -/
theorem enter_of_isNumeral {d : Point} (h : isNumeral d = true) (hd : isWord d = false)
    (dotted : Bool) : ∃ next toks, (∀ token ∈ toks, token.InNumber) ∧
      enter dotted d = (toks, .code next) := by
  have hcases : d = '.' ∨ d = '+' ∨ d = '-' := by
    simp only [isNumeral, Bool.or_eq_true, beq_iff_eq] at h
    rcases h with (((hdigit | hpoint) | rfl) | hplus) | hminus
    · rw [isWord_of_isDigit hdigit] at hd
      cases hd
    · exact Or.inl hpoint
    · exact absurd hd (by decide)
    · exact Or.inr (Or.inl hplus)
    · exact Or.inr (Or.inr hminus)
  rcases hcases with rfl | rfl | rfl
  · exact ⟨true, [], by simp, rfl⟩
  · exact ⟨false, [.sign '+'], by simp [Token.InNumber], rfl⟩
  · exact ⟨false, [.sign '-'], by simp [Token.InNumber], rfl⟩

/-- The tokens of a number in front of a comma or a closing bracket, from
between words and from inside a word of it. -/
theorem lex_number (hc : c = ',' ∨ c = ')') {cs : List Point} (h : ∀ d ∈ cs, isNumeral d = true) :
    (∀ dotted, ∃ toks, (∀ token ∈ toks, token.InNumber) ∧
      lex (.code dotted) (cs ++ c :: rest) = toks ++ lex (.code false) (c :: rest)) ∧
    ∀ dotted letters, (∀ d ∈ letters, isNumeral d = true) →
      ∃ toks, (∀ token ∈ toks, token.InNumber) ∧
        lex (.word dotted letters) (cs ++ c :: rest) = toks ++ lex (.code false) (c :: rest) := by
  induction cs with
  | nil =>
    have hword : isWord c = false := by rcases hc with rfl | rfl <;> decide
    have hsame : ∀ dotted, lex (.code dotted) (c :: rest) = lex (.code false) (c :: rest) := by
      intro dotted
      rcases hc with rfl | rfl <;> rfl
    refine ⟨fun dotted => ⟨[], by simp, hsame dotted⟩, fun dotted letters hletters => ?_⟩
    refine ⟨[wordToken dotted letters], ?_, lex_word_end dotted letters hword⟩
    intro token htoken
    rw [List.mem_singleton.mp htoken]
    exact inNumber_wordToken dotted hletters
  | cons d cs ih =>
    obtain ⟨ihcode, ihword⟩ := ih fun e he => h e (List.mem_cons_of_mem _ he)
    have hd : isNumeral d = true := h d List.mem_cons_self
    by_cases hword : isWord d = true
    · constructor
      · intro dotted
        obtain ⟨toks, htoks, hlex⟩ := ihword dotted [d] (by simpa using hd)
        refine ⟨toks, htoks, ?_⟩
        rw [List.cons_append, lex_cons, ← hlex]
        simp [step, enter, hword]
      · intro dotted letters hletters
        obtain ⟨toks, htoks, hlex⟩ := ihword dotted (letters ++ [d]) (by
          intro e he
          rcases List.mem_append.mp he with he | he
          · exact hletters e he
          · rw [List.mem_singleton.mp he]
            exact hd)
        refine ⟨toks, htoks, ?_⟩
        rw [List.cons_append, lex_cons, ← hlex]
        simp [step, hword]
    · rw [Bool.not_eq_true] at hword
      constructor
      · intro dotted
        obtain ⟨next, here, hhere, henter⟩ := enter_of_isNumeral hd hword dotted
        obtain ⟨toks, htoks, hlex⟩ := ihcode next
        refine ⟨here ++ toks, List.forall_mem_append.mpr ⟨hhere, htoks⟩, ?_⟩
        rw [List.cons_append, lex_cons, step, henter, List.append_assoc, ← hlex]
      · intro dotted letters hletters
        obtain ⟨next, here, hhere, henter⟩ := enter_of_isNumeral hd hword false
        obtain ⟨toks, htoks, hlex⟩ := ihcode next
        refine ⟨wordToken dotted letters :: (here ++ toks), ?_, ?_⟩
        · exact List.forall_mem_cons.mpr ⟨inNumber_wordToken dotted hletters,
            List.forall_mem_append.mpr ⟨hhere, htoks⟩⟩
        · rw [List.cons_append, lex_word_end dotted letters hword, lex_cons, step, henter,
            List.cons_append, List.append_assoc, ← hlex]

end

/-! ## Uses of lines with a text in them -/

theorem names_append (toks others : List Token) :
    names (toks ++ others) = names toks ++ names others := List.filterMap_append

/-- No name among the tokens of a number reads like one that has another
character than numbers have. -/
theorem not_mem_names_of_inNumber {toks : List Token} (h : ∀ token ∈ toks, token.InNumber)
    {name : Text} (hname : name.toList.all isNumeral = false) : name ∉ names toks := by
  intro hmem
  obtain ⟨token, htoken, hword⟩ := List.mem_filterMap.mp hmem
  cases token with
  | name word =>
    rw [Token.name?, Option.some.injEq] at hword
    subst hword
    rw [List.all_eq_true.mpr (h _ htoken)] at hname
    cases hname
  | member word => cases hword
  | sign c => cases hword

/-- The uses of an assignment to one word. -/
theorem uses_assignment {word : Text} (hne : word.toList ≠ [])
    (hword : ∀ d ∈ word.toList, isWord d = true) {rest : List Point} (value : List Token)
    (hvalue : lex (.code false) (.scalar ' ' :: rest) = .sign (.scalar '=') :: value) :
    uses (word ++ Text.ofList (.scalar ' ' :: rest)) = ⟨[word], names value⟩ := by
  unfold uses tokens
  rw [Text.toList_append, Text.toList_ofList, lex_first_word hne hword rfl, hvalue]
  rfl

end PipelineBoard.Script
