-- Facts about lists of keys: looking one up, the places where keys stand, and
-- the keys without repeats.
import Mathlib.Data.List.Basic
import Mathlib.Data.List.Induction
import Mathlib.Order.Defs.PartialOrder

namespace PipelineBoard

/-- A key that was filtered out is not found, and any other one as before. -/
theorem lookup_filter_key {α β : Type} [BEq α] [LawfulBEq α] (keep : α → Bool) (l : List (α × β))
    (key : α) :
    (l.filter fun entry => keep entry.1).lookup key = if keep key then l.lookup key else none := by
  induction l with
  | nil => simp
  | cons entry rest ih =>
    obtain ⟨k, value⟩ := entry
    by_cases hk : key = k
    · subst hk
      by_cases hkeep : keep key = true <;> simp [hkeep, ih]
    · have hk' : (key == k) = false := by simpa using hk
      by_cases hkeep : keep k = true <;> simp [List.lookup_cons, hkeep, hk', ih]

/-- In a list that goes up by some measure, a key stands before another one just
if its measure is less. -/
theorem idxOf_lt_iff {α β : Type} [BEq α] [LawfulBEq α] [Preorder β] {f : α → β} {l : List α}
    (h : l.Pairwise fun u v => f u < f v) {u v : α} (hu : u ∈ l) (hv : v ∈ l) :
    l.idxOf u < l.idxOf v ↔ f u < f v := by
  have hup : ∀ {a b : α}, a ∈ l → b ∈ l → l.idxOf a < l.idxOf b → f a < f b := by
    intro a b ha hb hab
    have hget := List.pairwise_iff_getElem.mp h _ _ (List.idxOf_lt_length_iff.mpr ha)
      (List.idxOf_lt_length_iff.mpr hb) hab
    rwa [List.getElem_idxOf, List.getElem_idxOf] at hget
  refine ⟨hup hu hv, fun hlt => ?_⟩
  rcases Nat.lt_trichotomy (l.idxOf u) (l.idxOf v) with hidx | hidx | hidx
  · exact hidx
  · rw [(List.idxOf_inj hu).mp hidx] at hlt
    exact absurd hlt (lt_irrefl _)
  · exact absurd hlt (lt_asymm (hup hv hu hidx))

/-- The keys of a list without repeats, in the order in which each is first there. -/
structure FirstPlaces {α : Type} [BEq α] (l once : List α) : Prop where
  nodup : once.Nodup
  mem_iff : ∀ key, key ∈ once ↔ key ∈ l
  ordered : once.Pairwise fun a b => l.idxOf a < l.idxOf b

theorem pairwise_eraseDups {α : Type} [BEq α] [LawfulBEq α] (l : List α) :
    l.eraseDups.Pairwise fun a b => l.idxOf a < l.idxOf b := by
  induction l using List.reverseRecOn with
  | nil => exact .nil
  | append_singleton l key ih =>
    have hkept : ∀ a ∈ l.eraseDups, (l ++ [key]).idxOf a = l.idxOf a :=
      fun a ha => List.idxOf_append_of_mem (List.mem_eraseDups.mp ha)
    have hold : l.eraseDups.Pairwise fun a b => (l ++ [key]).idxOf a < (l ++ [key]).idxOf b := by
      refine ih.imp_of_mem fun ha hb hlt => ?_
      rwa [hkept _ ha, hkept _ hb]
    rw [List.eraseDups_append]
    by_cases hkey : key ∈ l
    · simpa [List.removeAll, hkey] using hold
    · have hnew : ([key].removeAll l).eraseDups = [key] := by
        simp [List.removeAll, hkey, List.eraseDups_cons]
      rw [hnew, List.pairwise_append]
      refine ⟨hold, List.pairwise_singleton _ _, fun a ha b hb => ?_⟩
      rw [List.mem_singleton.mp hb, hkept a ha, List.idxOf_append_of_notMem hkey]
      have hlt := List.idxOf_lt_length_of_mem (List.mem_eraseDups.mp ha)
      omega

theorem firstPlaces_eraseDups {α : Type} [BEq α] [LawfulBEq α] (l : List α) :
    FirstPlaces l l.eraseDups where
  nodup := (pairwise_eraseDups l).imp fun hlt heq => Nat.ne_of_lt hlt (congrArg l.idxOf heq)
  mem_iff _ := List.mem_eraseDups
  ordered := pairwise_eraseDups l

end PipelineBoard
