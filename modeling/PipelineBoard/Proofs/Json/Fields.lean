-- Objects that override others: which keys they have, in which order, and what
-- value each key has in the end.
import Mathlib.Data.List.Nodup
import PipelineBoard.Proofs.Lists
import PipelineBoard.Json.Basic

namespace PipelineBoard

/-! ## Entries by a test of their values -/

theorem lookup_eq_none_of_notMem {α β : Type} [BEq α] [LawfulBEq α] {l : List (α × β)} {key : α}
    (h : key ∉ l.map Prod.fst) : l.lookup key = none := by
  rw [List.lookup_eq_none_iff]
  rintro ⟨k, value⟩ hentry
  have hne : key ≠ k := fun e => h (e ▸ List.mem_map_of_mem hentry)
  simpa using hne

/-- The entry of a key is found among those that pass a test just if it passes,
where no key comes twice. -/
theorem lookup_filter_value {α β : Type} [BEq α] [LawfulBEq α] (keep : β → Bool)
    {l : List (α × β)} (h : (l.map Prod.fst).Nodup) (key : α) :
    (l.filter fun entry => keep entry.2).lookup key = (l.lookup key).filter keep := by
  induction l with
  | nil => rfl
  | cons entry rest ih =>
    obtain ⟨k, value⟩ := entry
    obtain ⟨hnew, hdistinct⟩ := List.nodup_cons.mp h
    have hrest := ih hdistinct
    by_cases hk : key = k
    · subst hk
      have hnone : rest.lookup key = none := lookup_eq_none_of_notMem hnew
      by_cases hkeep : keep value = true
      · simp [hkeep, Option.filter_some]
      · rw [List.filter_cons_of_neg (by simpa using hkeep), hrest, hnone]
        simp [hkeep, Option.filter_some]
    · have hk' : (key == k) = false := by simpa using hk
      by_cases hkeep : keep value = true
      · simp [hkeep, List.lookup_cons, hk', hrest]
      · simp [hkeep, List.lookup_cons, hk', hrest]

namespace Fields

/-! ## Keys -/

/-- The keys of the fields, in order. -/
def keys (fields : Fields) : List Text := fields.map Prod.fst

theorem get?_eq_none {fields : Fields} {key : Text} (h : key ∉ fields.keys) :
    fields.get? key = none := lookup_eq_none_of_notMem h

/-- A key that is new goes to the end. -/
theorem set_of_notMem {fields : Fields} {key : Text} (h : key ∉ fields.keys) (value : Json) :
    fields.set key value = fields ++ [(key, value)] := by
  induction fields with
  | nil => rfl
  | cons field rest ih =>
    obtain ⟨k, v⟩ := field
    have hk : k ≠ key ∧ key ∉ Fields.keys rest := by
      simpa [keys, eq_comm] using h
    rw [set, if_neg hk.1, ih hk.2, List.cons_append]

/-- The next of fields with distinct keys goes to the end of those before it. -/
theorem set_of_nodup {fields others : Fields} {key : Text} {value : Json}
    (h : (Fields.keys (fields ++ (key, value) :: others)).Nodup) :
    fields.set key value = fields ++ [(key, value)] := by
  rw [keys, List.map_append, List.map_cons] at h
  apply set_of_notMem
  intro hold
  exact (List.nodup_append.mp h).2.2 key hold key List.mem_cons_self rfl

theorem keys_set (fields : Fields) (key : Text) (value : Json) :
    (fields.set key value).keys = if key ∈ fields.keys then fields.keys else fields.keys ++ [key] := by
  induction fields with
  | nil => rfl
  | cons field rest ih =>
    obtain ⟨k, v⟩ := field
    by_cases hk : k = key
    · simp [set, keys, hk]
    · have hset : (Fields.set ((k, v) :: rest) key value).keys =
          k :: (Fields.set rest key value).keys := by
        rw [set, if_neg hk]
        rfl
      have hmem : key ∈ Fields.keys ((k, v) :: rest) ↔ key ∈ Fields.keys rest := by
        simp [keys, Ne.symm hk]
      rw [hset, ih]
      by_cases hold : key ∈ Fields.keys rest
      · rw [if_pos hold, if_pos (hmem.mpr hold)]
        rfl
      · rw [if_neg hold, if_neg fun h => hold (hmem.mp h)]
        rfl

/-! ## Overridden fields -/

theorem overriddenBy_cons (fields : Fields) (field : Text × Json) (others : Fields) :
    fields.overriddenBy (field :: others) = (fields.set field.1 field.2).overriddenBy others := rfl

/-- The keys that are there keep their places, and new ones follow in order. -/
theorem keys_overriddenBy (fields : Fields) {others : Fields} (h : others.keys.Nodup) :
    (fields.overriddenBy others).keys =
      fields.keys ++ others.keys.filter fun key => !fields.keys.contains key := by
  induction others generalizing fields with
  | nil => simp [overriddenBy, keys]
  | cons field rest ih =>
    obtain ⟨key, value⟩ := field
    obtain ⟨hnew, hrest⟩ := List.nodup_cons.mp h
    have hkeys : Fields.keys ((key, value) :: rest) = key :: Fields.keys rest := rfl
    rw [overriddenBy_cons, ih (fields.set key value) hrest, keys_set, hkeys]
    by_cases hold : key ∈ fields.keys
    · rw [if_pos hold, List.filter_cons_of_neg (by simpa using hold)]
    · have hsame : (Fields.keys rest).filter (fun k => !(fields.keys ++ [key]).contains k) =
          (Fields.keys rest).filter fun k => !fields.keys.contains k := by
        apply List.filter_congr
        intro k hk
        have hne : k ≠ key := fun e => hnew (e ▸ hk)
        simp [hne]
      rw [if_neg hold, List.filter_cons_of_pos (by simpa using hold), hsame, List.append_assoc]
      rfl

/-- A value that overrides is found first. -/
theorem get?_overriddenBy (fields : Fields) {others : Fields} (h : others.keys.Nodup)
    (key : Text) : (fields.overriddenBy others).get? key = (others.get? key).or (fields.get? key) := by
  induction others generalizing fields with
  | nil => rfl
  | cons field rest ih =>
    obtain ⟨k, value⟩ := field
    obtain ⟨hnew, hrest⟩ := List.nodup_cons.mp h
    rw [overriddenBy_cons, ih (fields.set k value) hrest]
    by_cases hk : key = k
    · subst hk
      have hnone : Fields.get? rest key = none := get?_eq_none hnew
      rw [hnone, get?_set_self]
      simp [get?]
    · have hk' : (key == k) = false := by simpa using hk
      have hsame : Fields.get? ((k, value) :: rest) key = Fields.get? rest key := by
        simp [get?, List.lookup_cons, hk']
      rw [get?_set_ne fields value hk, hsame]

/-- What holds of all fields and of one that is set holds of the fields afterwards. -/
theorem forall_mem_set {p : Text × Json → Prop} {fields : Fields} {key : Text} {value : Json}
    (hfields : ∀ field ∈ fields, p field) (hset : p (key, value)) :
    ∀ field ∈ fields.set key value, p field := by
  induction fields with
  | nil => simpa [set] using hset
  | cons first rest ih =>
    obtain ⟨k, v⟩ := first
    obtain ⟨hfirst, hrest⟩ := List.forall_mem_cons.mp hfields
    rw [set]
    split
    · rename_i hkey
      exact List.forall_mem_cons.mpr ⟨hkey ▸ hset, hrest⟩
    · exact List.forall_mem_cons.mpr ⟨hfirst, ih hrest⟩

/-- What holds of all fields and of those that override them holds of the fields in
the end. -/
theorem forall_mem_overriddenBy {p : Text × Json → Prop} {fields others : Fields}
    (h : ∀ field ∈ fields, p field) (hothers : ∀ field ∈ others, p field) :
    ∀ field ∈ fields.overriddenBy others, p field := by
  induction others generalizing fields with
  | nil => exact h
  | cons field rest ih =>
    obtain ⟨hfield, hrest⟩ := List.forall_mem_cons.mp hothers
    rw [overriddenBy_cons]
    exact ih (forall_mem_set h hfield) hrest

end Fields

end PipelineBoard
