-- A printed value reads back as itself: its text is read from the front, whatever
-- depth it was printed at, and what comes after it is left.
import PipelineBoard.Proofs.Json.Fields
import PipelineBoard.Proofs.Json.Reading

namespace PipelineBoard

namespace Json

open Text Decimal

/-! ## Values that can be read -/

mutual

/-- A value whose text can be read back: no integer is too long, and no key
comes twice in an object, at any depth. -/
def isReadable : Json → Bool
  | .int n => width n.natAbs ≤ Numeral.mostDigits
  | .list items => allReadable items
  | .object fields => decide (Fields.keys fields).Nodup && allFieldsReadable fields
  | _ => true

def allReadable : List Json → Bool
  | [] => true
  | item :: rest => item.isReadable && allReadable rest

def allFieldsReadable : List (Text × Json) → Bool
  | [] => true
  | (_, value) :: rest => value.isReadable && allFieldsReadable rest

end

theorem allFieldsReadable_iff {fields : Fields} :
    allFieldsReadable fields = true ↔ ∀ field ∈ fields, field.2.isReadable = true := by
  induction fields with
  | nil => simp [allFieldsReadable]
  | cons field rest ih => simp [allFieldsReadable, ih]

theorem isReadable_object_iff {fields : Fields} :
    (Json.object fields).isReadable = true ↔
      fields.keys.Nodup ∧ ∀ field ∈ fields, field.2.isReadable = true := by
  rw [isReadable, Bool.and_eq_true, decide_eq_true_iff, allFieldsReadable_iff]

theorem allFieldsPlain_iff {fields : Fields} :
    allFieldsPlain fields = true ↔ ∀ field ∈ fields, field.2.isPlain = true := by
  induction fields with
  | nil => simp [allFieldsPlain]
  | cons field rest ih => simp [allFieldsPlain, ih]

/-- The text is read as the value, and what comes after it is left. -/
def ReadsTo (result : Except Stop (Json × Cursor)) (value : Json) (rest : List Point) : Prop :=
  ∃ offset, result = .ok (value, ⟨rest, offset⟩)

/-! ## Steps of the reader -/

section Steps

variable (steps offset : Nat) (rest : List Point)

theorem readsTo_null : ReadsTo (readValue (steps + 1) ⟨(Text.toList "null") ++ rest, offset⟩) .null rest :=
  ⟨offset + 4, rfl⟩

theorem readsTo_true :
    ReadsTo (readValue (steps + 1) ⟨(Text.toList "true") ++ rest, offset⟩) (.bool true) rest :=
  ⟨offset + 4, rfl⟩

theorem readsTo_false :
    ReadsTo (readValue (steps + 1) ⟨(Text.toList "false") ++ rest, offset⟩) (.bool false) rest :=
  ⟨offset + 5, rfl⟩

theorem readsTo_noItems :
    ReadsTo (readValue (steps + 1) ⟨.scalar '[' :: .scalar ']' :: rest, offset⟩) (.list []) rest :=
  ⟨offset + 2, rfl⟩

theorem readsTo_noFields :
    ReadsTo (readValue (steps + 1) ⟨.scalar '{' :: .scalar '}' :: rest, offset⟩) (.object []) rest :=
  ⟨offset + 2, rfl⟩

theorem readsTo_string (s : Text) :
    ReadsTo (readValue (steps + 1) ⟨doubleQuoted s.toList ++ rest, offset⟩) (.string s) rest := by
  have htext : doubleQuoted s.toList ++ rest =
      .scalar '"' :: (s.toList.flatMap escapeDouble ++ .scalar '"' :: rest) := by
    simp [doubleQuoted]
  obtain ⟨o, hread⟩ := readString_doubleQuoted offset s rest (offset + 1)
  refine ⟨o, ?_⟩
  rw [htext]
  change (readString offset [] (offset + 1)
    (s.toList.flatMap escapeDouble ++ .scalar '"' :: rest)).map _ = _
  rw [hread]
  rfl

/-- A bracket before anything but the closing one starts the items. -/
theorem readValue_bracket {inside : Cursor}
    (hinside : (Cursor.mk rest (offset + 1)).skipSpace = inside)
    (h : inside.rest.head? ≠ some (.scalar ']')) :
    readValue (steps + 1) ⟨.scalar '[' :: rest, offset⟩ = readItems steps [] inside := by
  have hhead : ¬ (inside.rest.head? == some (.scalar ']')) = true := by simpa using h
  change (if ((Cursor.mk rest (offset + 1)).skipSpace.rest.head? == some (.scalar ']')) = true then _
    else readItems steps [] (Cursor.mk rest (offset + 1)).skipSpace) = _
  rw [hinside, if_neg hhead]

theorem readValue_brace {inside : Cursor}
    (hinside : (Cursor.mk rest (offset + 1)).skipSpace = inside)
    (h : inside.rest.head? ≠ some (.scalar '}')) :
    readValue (steps + 1) ⟨.scalar '{' :: rest, offset⟩ = readFields steps [] inside := by
  have hhead : ¬ (inside.rest.head? == some (.scalar '}')) = true := by simpa using h
  change (if ((Cursor.mk rest (offset + 1)).skipSpace.rest.head? == some (.scalar '}')) = true then _
    else readFields steps [] (Cursor.mk rest (offset + 1)).skipSpace) = _
  rw [hinside, if_neg hhead]

end Steps

/-! ## Steps between items -/

section Items

variable {steps : Nat} (done : List Json) {c : Cursor} {value : Json}

/-- What stands before the end of a list or an object is skipped. -/
theorem skipSpace_newLine (depth : Nat) {close : Point} (h : isSpace close = false)
    (rest : List Point) (offset : Nat) :
    (Cursor.mk (newLine depth ++ close :: rest) offset).skipSpace =
      ⟨close :: rest, offset + (newLine depth).length⟩ :=
  skipSpace_append (isSpace_of_mem_newLine depth) (lacks_cons h rest) offset

theorem readItems_last (outer : Nat) {rest : List Point}
    (h : ReadsTo (readValue steps c) value (newLine outer ++ .scalar ']' :: rest)) :
    ReadsTo (readItems (steps + 1) done c) (.list (value :: done).reverse) rest := by
  obtain ⟨o, hvalue⟩ := h
  rw [readItems, hvalue]
  dsimp only
  rw [skipSpace_newLine outer (by decide)]
  exact ⟨_, rfl⟩

theorem readItems_comma {more : List Point} (h : ReadsTo (readValue steps c) value (.scalar ',' :: more)) :
    ∃ o, readItems (steps + 1) done c =
      readItems steps (value :: done) (Cursor.mk more o).skipSpace := by
  obtain ⟨o, hvalue⟩ := h
  refine ⟨o + 1, ?_⟩
  rw [readItems, hvalue]
  dsimp only
  rw [skipSpace_of_lacks (lacks_cons (by decide) more)]
  rfl

end Items

/-! ## Steps between fields -/

section Fields

variable {steps : Nat} (done : Fields) (key : Text) {value : Json} {text : List Point}

/-- What is read once a field is. -/
def readOn (steps : Nat) (fields : Fields) (after : Cursor) : Except Stop (Json × Cursor) :=
  match after.rest with
  | .scalar '}' :: _ => .ok (.object fields, after.skip 1)
  | .scalar ',' :: _ => readFields steps fields (after.skip 1).skipSpace
  | _ => .error (.fault .noComma after.offset)

theorem readFields_key {more : List Point} (opens : Lacks isSpace text)
    (h : ∀ offset, ReadsTo (readValue steps ⟨text, offset⟩) value more) (offset : Nat) :
    ∃ o, readFields (steps + 1) done ⟨doubleQuoted key.toList ++ .scalar ':' :: .scalar ' ' :: text, offset⟩ =
      readOn steps (done.set key value) (Cursor.mk more o).skipSpace := by
  have htext : doubleQuoted key.toList ++ .scalar ':' :: .scalar ' ' :: text =
      .scalar '"' :: (key.toList.flatMap escapeDouble ++ .scalar '"' :: .scalar ':' :: .scalar ' ' :: text) := by
    simp [doubleQuoted]
  obtain ⟨o, hkey⟩ := readString_doubleQuoted offset key (.scalar ':' :: .scalar ' ' :: text) (offset + 1)
  have hcolon : (Cursor.mk (.scalar ':' :: .scalar ' ' :: text) o).skipSpace = ⟨.scalar ':' :: .scalar ' ' :: text, o⟩ :=
    skipSpace_of_lacks (lacks_cons (by decide) _) o
  have hspace : (Cursor.mk (.scalar ' ' :: text) (o + 1)).skipSpace = ⟨text, o + 1 + 1⟩ :=
    @skipSpace_append [.scalar ' '] text (by simp [isSpace]) opens (o + 1)
  have hskip : (Cursor.mk (.scalar ':' :: .scalar ' ' :: text) o).skip 1 = ⟨.scalar ' ' :: text, o + 1⟩ := rfl
  obtain ⟨o', hvalue⟩ := h (o + 1 + 1)
  refine ⟨o', ?_⟩
  rw [htext]
  simp only [readFields, hkey, hcolon, hskip, hspace, hvalue]
  rfl

theorem readFields_last (outer : Nat) {rest : List Point} (opens : Lacks isSpace text)
    (h : ∀ offset, ReadsTo (readValue steps ⟨text, offset⟩) value (newLine outer ++ .scalar '}' :: rest))
    (offset : Nat) :
    ReadsTo (readFields (steps + 1) done ⟨doubleQuoted key.toList ++ .scalar ':' :: .scalar ' ' :: text, offset⟩)
      (.object (done.set key value)) rest := by
  obtain ⟨o, hread⟩ := readFields_key done key opens h offset
  rw [hread, skipSpace_newLine outer (by decide)]
  exact ⟨_, rfl⟩

theorem readFields_comma {more : List Point} (opens : Lacks isSpace text)
    (h : ∀ offset, ReadsTo (readValue steps ⟨text, offset⟩) value (.scalar ',' :: more)) (offset : Nat) :
    ∃ o, readFields (steps + 1) done ⟨doubleQuoted key.toList ++ .scalar ':' :: .scalar ' ' :: text, offset⟩ =
      readFields steps (done.set key value) (Cursor.mk more o).skipSpace := by
  obtain ⟨o, hread⟩ := readFields_key done key opens h offset
  refine ⟨o + 1, ?_⟩
  rw [hread, skipSpace_of_lacks (lacks_cons (by decide) more)]
  rfl

end Fields

/-! ## The round trip -/

/-- The items start on a line of their own. -/
theorem skipSpace_renderItems (depth : Nat) {item : Json} (plain : item.isPlain = true)
    (others : List Json) (tail : List Point) (offset : Nat) :
    (Cursor.mk (renderItems depth (item :: others) ++ tail) offset).skipSpace =
      ⟨render depth item ++ ((if others.isEmpty then [] else [.scalar ',']) ++
        (renderItems depth others ++ tail)), offset + (newLine depth).length⟩ := by
  have htext : renderItems depth (item :: others) ++ tail = newLine depth ++
      (render depth item ++ ((if others.isEmpty then [] else [.scalar ',']) ++
        (renderItems depth others ++ tail))) := by
    rw [renderItems]
    simp only [List.append_assoc]
  rw [htext]
  exact skipSpace_append (isSpace_of_mem_newLine depth) ((opens_render depth plain).lacks _) offset

theorem skipSpace_renderFields (depth : Nat) (key : Text) (value : Json)
    (others : List (Text × Json)) (tail : List Point) (offset : Nat) :
    (Cursor.mk (renderFields depth ((key, value) :: others) ++ tail) offset).skipSpace =
      ⟨doubleQuoted key.toList ++ .scalar ':' :: .scalar ' ' :: (render depth value ++
        ((if others.isEmpty then [] else [.scalar ',']) ++ (renderFields depth others ++ tail))),
        offset + (newLine depth).length⟩ := by
  have htext : renderFields depth ((key, value) :: others) ++ tail = newLine depth ++
      (doubleQuoted key.toList ++ .scalar ':' :: .scalar ' ' :: (render depth value ++
        ((if others.isEmpty then [] else [.scalar ',']) ++ (renderFields depth others ++ tail)))) := by
    rw [renderFields]
    simp only [List.append_assoc, List.cons_append]
  rw [htext]
  exact skipSpace_append (isSpace_of_mem_newLine depth) (lacks_cons (by decide) _) offset

theorem skipSpace_renderItems_comma (depth : Nat) {item : Json} (plain : item.isPlain = true)
    {others : List Json} (more : others ≠ []) (tail : List Point) (offset : Nat) :
    (Cursor.mk (renderItems depth (item :: others) ++ tail) offset).skipSpace =
      ⟨render depth item ++ .scalar ',' :: (renderItems depth others ++ tail),
        offset + (newLine depth).length⟩ := by
  have hcomma : others.isEmpty = false := List.isEmpty_eq_false_iff.mpr more
  rw [skipSpace_renderItems depth plain, hcomma]
  rfl

theorem skipSpace_renderFields_comma (depth : Nat) (key : Text) (value : Json)
    {others : List (Text × Json)} (more : others ≠ []) (tail : List Point) (offset : Nat) :
    (Cursor.mk (renderFields depth ((key, value) :: others) ++ tail) offset).skipSpace =
      ⟨doubleQuoted key.toList ++ .scalar ':' :: .scalar ' ' :: (render depth value ++
        .scalar ',' :: (renderFields depth others ++ tail)), offset + (newLine depth).length⟩ := by
  have hcomma : others.isEmpty = false := List.isEmpty_eq_false_iff.mpr more
  rw [skipSpace_renderFields, hcomma]
  rfl

theorem length_renderItems (depth : Nat) (item : Json) (others : List Json) :
    (render depth item).length + (renderItems depth others).length <
      (renderItems depth (item :: others)).length := by
  rw [renderItems]
  simp only [newLine, List.length_append, List.length_cons]
  omega

theorem length_renderFields (depth : Nat) (key : Text) (value : Json)
    (others : List (Text × Json)) :
    (render depth value).length + (renderFields depth others).length <
      (renderFields depth ((key, value) :: others)).length := by
  rw [renderFields]
  simp only [newLine, List.length_append, List.length_cons]
  omega

theorem render_list (depth : Nat) (item : Json) (others : List Json) (rest : List Point) :
    render depth (.list (item :: others)) ++ rest =
      .scalar '[' :: (renderItems (depth + 1) (item :: others) ++ (newLine depth ++ .scalar ']' :: rest)) := by
  simp [render]

theorem render_object (depth : Nat) (field : Text × Json) (others : List (Text × Json))
    (rest : List Point) :
    render depth (.object (field :: others)) ++ rest =
      .scalar '{' :: (renderFields (depth + 1) (field :: others) ++ (newLine depth ++ .scalar '}' :: rest)) := by
  simp [render]

theorem length_render_list (depth : Nat) (item : Json) (others : List Json) :
    (renderItems (depth + 1) (item :: others)).length + 1 <
      (render depth (.list (item :: others))).length := by
  have htext := render_list depth item others []
  rw [List.append_nil] at htext
  rw [htext]
  simp only [List.length_append, List.length_cons]
  omega

theorem length_render_object (depth : Nat) (field : Text × Json)
    (others : List (Text × Json)) :
    (renderFields (depth + 1) (field :: others)).length + 1 <
      (render depth (.object (field :: others))).length := by
  have htext := render_object depth field others []
  rw [List.append_nil] at htext
  rw [htext]
  simp only [List.length_append, List.length_cons]
  omega

mutual

/-- A value is read from its text at any depth, if the reader may take two steps
for each character. -/
theorem readValue_render (depth : Nat) :
    ∀ (v : Json), v.isPlain = true → v.isReadable = true → ∀ (rest : List Point) (steps : Nat),
      Ends rest → 2 * (render depth v).length ≤ steps + 1 → ∀ offset,
        ReadsTo (readValue (steps + 1) ⟨render depth v ++ rest, offset⟩) v rest
  | .null, _, _, rest, steps, _, _, offset => by
    rw [render]
    exact readsTo_null steps offset rest
  | .bool true, _, _, rest, steps, _, _, offset => by
    rw [render]
    exact readsTo_true steps offset rest
  | .bool false, _, _, rest, steps, _, _, offset => by
    rw [render]
    exact readsTo_false steps offset rest
  | .int n, _, readable, rest, steps, ends, _, offset => by
    rw [render, readValue_of_startsNumber (startsNumber_repr n rest)]
    exact readNumber_repr n ends (of_decide_eq_true readable) offset
  | .real d, plain, _, rest, steps, ends, _, offset => by
    rw [render, readValue_of_startsNumber (startsNumber_text plain rest)]
    exact readNumber_text plain ends offset
  | .string s, _, _, rest, steps, _, _, offset => by
    rw [render]
    exact readsTo_string steps offset rest s
  | .list [], _, _, rest, steps, _, _, offset => by
    rw [render]
    exact readsTo_noItems steps offset rest
  | .list (item :: others), plain, readable, rest, steps, _, hsteps, offset => by
    have hitem : item.isPlain = true := ((Bool.and_eq_true _ _).mp plain).1
    have hlength := length_render_list depth item others
    have hinside := skipSpace_renderItems (depth + 1) hitem others (newLine depth ++ .scalar ']' :: rest)
      (offset + 1)
    have hhead := (opens_render (depth + 1) hitem).head?_append
      ((if others.isEmpty then [] else [.scalar ',']) ++
        (renderItems (depth + 1) others ++ (newLine depth ++ .scalar ']' :: rest)))
    rw [render_list, readValue_bracket steps offset _ hinside hhead.1, ← hinside]
    exact readItems_render (depth + 1) depth (item :: others) (by simp) plain readable rest steps
      (by omega) [] (offset + 1)
  | .object [], _, _, rest, steps, _, _, offset => by
    rw [render]
    exact readsTo_noFields steps offset rest
  | .object ((key, value) :: others), plain, readable, rest, steps, _, hsteps, offset => by
    obtain ⟨hnodup, hreadable⟩ := (Bool.and_eq_true _ _).mp readable
    have hlength := length_render_object depth (key, value) others
    have hinside := skipSpace_renderFields (depth + 1) key value others
      (newLine depth ++ .scalar '}' :: rest) (offset + 1)
    rw [render_object, readValue_brace steps offset _ hinside (by simp [doubleQuoted]), ← hinside]
    exact readFields_render (depth + 1) depth ((key, value) :: others) (by simp) plain hreadable
      rest steps (by omega) [] (offset + 1) (of_decide_eq_true hnodup)

theorem readItems_render (depth outer : Nat) :
    ∀ (items : List Json), items ≠ [] → allPlain items = true → allReadable items = true →
      ∀ (rest : List Point) (steps : Nat), 2 * (renderItems depth items).length ≤ steps →
        ∀ done offset,
          ReadsTo
            (readItems steps done (Cursor.skipSpace
              ⟨renderItems depth items ++ (newLine outer ++ .scalar ']' :: rest), offset⟩))
            (.list (done.reverse ++ items)) rest
  | [], hne, _, _, _, _, _, _, _ => absurd rfl hne
  | item :: others, _, plain, readable, rest, steps, hsteps, done, offset => by
    obtain ⟨hitem, hothers⟩ := (Bool.and_eq_true _ _).mp plain
    obtain ⟨hitem', hothers'⟩ := (Bool.and_eq_true _ _).mp readable
    have hlength := length_renderItems depth item others
    have hpos := length_render_pos depth hitem
    obtain ⟨more, rfl⟩ : ∃ more, steps = more + 1 + 1 := ⟨steps - 2, by omega⟩
    by_cases hlast : others = []
    · have hdone : (item :: done).reverse = done.reverse ++ [item] := List.reverse_cons
      rw [skipSpace_renderItems depth hitem, hlast, ← hdone]
      apply readItems_last done outer
      exact readValue_render depth item hitem hitem' _ more (ends_feed _) (by omega) _
    · have hdone : done.reverse ++ item :: others = (item :: done).reverse ++ others := by simp
      have hvalue := readValue_render depth item hitem hitem'
        (.scalar ',' :: (renderItems depth others ++ (newLine outer ++ .scalar ']' :: rest))) more (ends_comma _)
        (by omega) (offset + (newLine depth).length)
      obtain ⟨o, hread⟩ := readItems_comma done hvalue
      rw [skipSpace_renderItems_comma depth hitem hlast, hread, hdone]
      exact readItems_render depth outer others hlast hothers hothers' rest (more + 1) (by omega) _
        o

theorem readFields_render (depth outer : Nat) :
    ∀ (fields : Fields), fields ≠ [] → allFieldsPlain fields = true →
      allFieldsReadable fields = true →
      ∀ (rest : List Point) (steps : Nat), 2 * (renderFields depth fields).length ≤ steps →
        ∀ (done : Fields) offset, (Fields.keys (done ++ fields)).Nodup →
          ReadsTo
            (readFields steps done (Cursor.skipSpace
              ⟨renderFields depth fields ++ (newLine outer ++ .scalar '}' :: rest), offset⟩))
            (.object (done ++ fields)) rest
  | [], hne, _, _, _, _, _, _, _, _ => absurd rfl hne
  | (key, value) :: others, _, plain, readable, rest, steps, hsteps, done, offset, hnodup => by
    obtain ⟨hvalue, hothers⟩ := (Bool.and_eq_true _ _).mp plain
    obtain ⟨hvalue', hothers'⟩ := (Bool.and_eq_true _ _).mp readable
    have hlength := length_renderFields depth key value others
    have hpos := length_render_pos depth hvalue
    obtain ⟨more, rfl⟩ : ∃ more, steps = more + 1 + 1 := ⟨steps - 2, by omega⟩
    have hset : done.set key value = done ++ [(key, value)] := Fields.set_of_nodup hnodup
    by_cases hlast : others = []
    · rw [skipSpace_renderFields depth key value, hlast, ← hset]
      apply readFields_last done key outer ((opens_render depth hvalue).lacks _)
      intro o
      exact readValue_render depth value hvalue hvalue' _ more (ends_feed _) (by omega) o
    · have hdone : done ++ (key, value) :: others = done.set key value ++ others := by
        rw [hset, List.append_assoc]
        rfl
      obtain ⟨o, hread⟩ := readFields_comma done key ((opens_render depth hvalue).lacks _)
        (fun o => readValue_render depth value hvalue hvalue'
          (.scalar ',' :: (renderFields depth others ++ (newLine outer ++ .scalar '}' :: rest))) more (ends_comma _)
          (by omega) o) (offset + (newLine depth).length)
      rw [hdone] at hnodup
      rw [skipSpace_renderFields_comma depth key value hlast, hread, hdone]
      exact readFields_render depth outer others hlast hothers hothers' rest (more + 1) (by omega) _
        o hnodup

end

theorem readChars_render {v : Json} (plain : v.isPlain = true) (readable : v.isReadable = true) :
    readChars (render 0 v) = .ok v := by
  have hopens := opens_render 0 plain
  have hmark : ((render 0 v).head? == some (.scalar '\ufeff')) = false := by
    have hhead := (hopens.head?_append []).2
    rw [List.append_nil] at hhead
    rw [beq_eq_false_iff_ne]
    exact hhead
  have hspace : Lacks isSpace (render 0 v) := by
    have hlacks := hopens.lacks []
    rwa [List.append_nil] at hlacks
  obtain ⟨o, hvalue⟩ := readValue_render 0 v plain readable [] (2 * (render 0 v).length + 1)
    ends_nil (by omega) 0
  rw [List.append_nil] at hvalue
  unfold readChars
  rw [hmark, skipSpace_of_lacks hspace, hvalue]
  rfl

/-- A value without an undefined or infinite number and within the limits of the
reader is read from its text. -/
theorem read_render {v : Json} (plain : v.isPlain = true) (readable : v.isReadable = true) :
    read (Text.ofList (render 0 v)) = .ok v := by
  unfold read
  rw [Text.toList_ofList, readChars_render plain readable]

end Json

end PipelineBoard
