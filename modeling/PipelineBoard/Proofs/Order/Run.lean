-- The run of the orderer, step by step. Over distinct ids each step keeps the
-- invariant `Sound`.
import Mathlib.Data.List.Nodup
import Mathlib.Data.List.Perm.Subperm
import Mathlib.Order.Basic
import PipelineBoard.Graph.Order

namespace PipelineBoard.Order

variable {ids : List Text} {edges : List (Text × Text)} {run : Run}

/-! ## Meeting the targets of one id -/

theorem mem_targets {id v : Text} : v ∈ targets edges id ↔ (id, v) ∈ edges := by
  simp [targets]

/-- Each edge into an id takes one from its count. -/
theorem foldl_meet_fst (ids ts : List Text) (met : (Text → Int) × List Text) :
    (ts.foldl (meet ids) met).1 = fun v => met.1 v - ts.count v := by
  induction ts generalizing met with
  | nil => simp
  | cons t ts ih =>
    funext v
    rw [List.foldl_cons, ih]
    by_cases h : v = t
    · subst h
      simp only [meet, if_true, List.count_cons_self]
      omega
    · simp [meet, h, List.count_cons_of_ne (Ne.symm h)]

/-- An id becomes ready once if its edges take its count to zero, and not at
all otherwise, also where they take it below zero. -/
theorem count_foldl_meet (ids ts : List Text) (met : (Text → Int) × List Text) (v : Text) :
    (ts.foldl (meet ids) met).2.count v =
      met.2.count v + if v ∈ ids ∧ 0 < met.1 v ∧ met.1 v ≤ ts.count v then 1 else 0 := by
  induction ts generalizing met with
  | nil =>
    have : ¬ (v ∈ ids ∧ 0 < met.1 v ∧ met.1 v ≤ ([] : List Text).count v) := by
      simp only [List.count_nil]; omega
    rw [if_neg this]; rfl
  | cons t ts ih =>
    rw [List.foldl_cons, ih]
    by_cases h : v = t
    · subst h
      have hcount : (meet ids met v).2.count v =
          met.2.count v + if v ∈ ids ∧ met.1 v = 1 then 1 else 0 := by
        by_cases h1 : met.1 v = 1 <;> by_cases hv : v ∈ ids <;>
          simp [meet, h1, hv, Int.sub_eq_zero]
      have hfst : (meet ids met v).1 v = met.1 v - 1 := by simp [meet]
      rw [hcount, hfst, List.count_cons_self]
      by_cases hv : v ∈ ids <;> simp only [hv, true_and, false_and, if_false]
      split_ifs <;> omega
    · have hcount : (meet ids met t).2.count v = met.2.count v := by
        simp only [meet]
        split
        · simp [Ne.symm h]
        · rfl
      have hfst : (meet ids met t).1 v = met.1 v := by simp [meet, h]
      rw [hcount, hfst, List.count_cons_of_ne (Ne.symm h)]

/-- The ids that the edges from an id make ready, as they enter the queue. -/
def freed (ids : List Text) (edges : List (Text × Text)) (waiting : Text → Int)
    (id : Text) : List Text :=
  ((targets edges id).foldl (meet ids) (waiting, [])).2.mergeSort
    fun a b => placeIn ids a ≤ placeIn ids b

theorem count_freed (ids : List Text) (edges : List (Text × Text))
    (waiting : Text → Int) (id v : Text) :
    (freed ids edges waiting id).count v =
      if v ∈ ids ∧ 0 < waiting v ∧ waiting v ≤ (targets edges id).count v then 1 else 0 := by
  unfold freed
  rw [(List.mergeSort_perm _ _).count_eq, count_foldl_meet]
  simp

theorem mem_freed {waiting : Text → Int} {id v : Text} :
    v ∈ freed ids edges waiting id ↔
      v ∈ ids ∧ 0 < waiting v ∧ waiting v ≤ (targets edges id).count v := by
  rw [← List.count_pos_iff, count_freed]
  split_ifs with h
  · simp [h]
  · simp only [h, Nat.lt_irrefl]

theorem freed_nodup (ids : List Text) (edges : List (Text × Text))
    (waiting : Text → Int) (id : Text) : (freed ids edges waiting id).Nodup := by
  rw [List.nodup_iff_count_le_one]
  intro v
  rw [count_freed]
  split_ifs <;> omega

/-- One step with an id at the front of the queue. -/
theorem advance_of_queue_cons {id : Text} {queue : List Text} (h : run.queue = id :: queue) :
    advance ids edges run = {
      queue := queue ++ freed ids edges run.waiting id
      done := run.done ++ [id]
      waiting := fun v => run.waiting v - (targets edges id).count v } := by
  unfold advance
  rw [h]
  simp only [foldl_meet_fst]
  rfl

/-! ## The invariant -/

/-- The edges into an id whose sources are not among the given ids. -/
def openEdges (edges : List (Text × Text)) (done : List Text) (v : Text) : Nat :=
  edges.countP fun edge => edge.2 = v ∧ edge.1 ∉ done

/-- What holds before and after each step of a run over distinct ids. -/
structure Sound (ids : List Text) (edges : List (Text × Text)) (run : Run) : Prop where
  nodup : (run.done ++ run.queue).Nodup
  listed : ∀ v ∈ run.done ++ run.queue, v ∈ ids
  counted : ∀ v, run.waiting v = openEdges edges run.done v
  ready : ∀ v ∈ ids, v ∈ run.done ++ run.queue ↔ run.waiting v = 0
  in_order : ∀ u v, (u, v) ∈ edges → v ∈ run.done →
    u ∈ run.done ∧ run.done.idxOf u < run.done.idxOf v

theorem Sound.head_not_done (h : Sound ids edges run) {id : Text} {queue : List Text}
    (hq : run.queue = id :: queue) : id ∉ run.done := by
  have hnodup := h.nodup
  rw [hq, List.nodup_append] at hnodup
  exact fun hm => hnodup.2.2 id hm id (by simp) rfl

theorem openEdges_eq_zero {done : List Text} {v : Text} :
    openEdges edges done v = 0 ↔ ∀ u, (u, v) ∈ edges → u ∈ done := by
  unfold openEdges
  rw [List.countP_eq_zero]
  constructor
  · intro h u hu
    by_contra hnot
    exact h (u, v) hu (by simp [hnot])
  · rintro h ⟨u, w⟩ hu
    simp only [decide_eq_true_eq, not_and, not_not]
    rintro rfl
    exact h u hu

/-- An id that is done closes its own edges and no others. -/
theorem openEdges_append (edges : List (Text × Text)) {done : List Text} {id : Text}
    (h : id ∉ done) (v : Text) :
    openEdges edges done v = openEdges edges (done ++ [id]) v + (targets edges id).count v := by
  unfold openEdges targets
  induction edges with
  | nil => simp
  | cons edge edges ih =>
    obtain ⟨s, t⟩ := edge
    by_cases hs : s = id
    · subst hs
      rw [List.countP_cons, List.countP_cons, ih, List.filter_cons_of_pos (by simp)]
      by_cases ht : t = v
      · simp [h, ht]
        omega
      · simp [ht]
    · rw [List.countP_cons, List.countP_cons, ih, List.filter_cons_of_neg (by simpa using hs)]
      simp [hs]
      omega

theorem sound_start (edges : List (Text × Text)) (distinct : ids.Nodup) :
    Sound ids edges (start ids edges) := by
  have hopen : ∀ v, openEdges edges [] v = edges.countP fun edge => edge.2 = v := by
    intro v
    simp [openEdges]
  refine ⟨?_, ?_, ?_, ?_, ?_⟩
  · simp only [start, List.nil_append]
    exact distinct.filter _
  · intro v hv
    exact (List.mem_filter.mp hv).1
  · intro v
    simp [start, hopen]
  · intro v hv
    simp [start, hv]
  · intro u v _ hv
    simp [start] at hv

theorem sound_advance (h : Sound ids edges run) : Sound ids edges (advance ids edges run) := by
  rcases hq : run.queue with _ | ⟨id, queue⟩
  · rw [advance_of_queue_nil _ _ hq]
    exact h
  have hid := h.head_not_done hq
  obtain ⟨nodup, listed, counted, ready, in_order⟩ := h
  rw [hq] at nodup listed ready
  have hcounted : ∀ v, run.waiting v - (targets edges id).count v =
      openEdges edges (run.done ++ [id]) v := by
    intro v
    have := openEdges_append edges hid v
    rw [counted v]
    omega
  -- An id that was ready before has a count of zero, so it is not freed again.
  have hfreed : ∀ v ∈ run.done ++ id :: queue, v ∉ freed ids edges run.waiting id := by
    intro v hv hf
    have := (ready v (listed v hv)).mp hv
    have := (mem_freed.mp hf).2.1
    omega
  have hsplit : run.done ++ [id] ++ (queue ++ freed ids edges run.waiting id) =
      (run.done ++ id :: queue) ++ freed ids edges run.waiting id := by simp
  rw [advance_of_queue_cons hq]
  refine ⟨?_, ?_, hcounted, ?_, ?_⟩
  · simp only [hsplit]
    rw [List.nodup_append]
    exact ⟨nodup, freed_nodup .., fun a ha b hb hab => hfreed a ha (hab ▸ hb)⟩
  · simp only [hsplit]
    intro v hv
    rcases List.mem_append.mp hv with hv | hv
    · exact listed v hv
    · exact (mem_freed.mp hv).1
  · simp only [hsplit]
    intro v hv
    have hnew := hcounted v
    have hold := counted v
    rw [List.mem_append, ready v hv, mem_freed]
    simp only [hv, true_and]
    omega
  · intro u v huv hv
    simp only at hv ⊢
    rcases List.mem_append.mp hv with hv | hv
    · obtain ⟨hu, hlt⟩ := in_order u v huv hv
      refine ⟨List.mem_append_left _ hu, ?_⟩
      rwa [List.idxOf_append_of_mem hu, List.idxOf_append_of_mem hv]
    · rw [List.mem_singleton] at hv
      subst hv
      have hzero := (ready v (listed v (by simp))).mp (by simp)
      have hu : u ∈ run.done := openEdges_eq_zero.mp (by have := counted v; omega) u huv
      refine ⟨List.mem_append_left _ hu, ?_⟩
      rw [List.idxOf_append_of_mem hu, List.idxOf_append_of_notMem hid]
      have := List.idxOf_lt_length_iff.mpr hu
      omega

theorem sound_advanceBy (steps : Nat) (h : Sound ids edges run) :
    Sound ids edges (advanceBy ids edges steps run) := by
  induction steps generalizing run with
  | zero => exact h
  | succ steps ih => exact ih (sound_advance h)

/-! ## The end of the run -/

theorem advanceBy_of_queue_nil (steps : Nat) (h : run.queue = []) :
    advanceBy ids edges steps run = run := by
  induction steps with
  | zero => rfl
  | succ steps ih => rw [advanceBy, advance_of_queue_nil _ _ h, ih]

/-- A run that has not emptied its queue has ordered one id at each step. -/
theorem queue_nil_or_length_done (ids : List Text) (edges : List (Text × Text))
    (steps : Nat) (run : Run) :
    (advanceBy ids edges steps run).queue = [] ∨
      (advanceBy ids edges steps run).done.length = run.done.length + steps := by
  induction steps generalizing run with
  | zero => exact Or.inr rfl
  | succ steps ih =>
    rcases hq : run.queue with _ | ⟨id, queue⟩
    · left
      rw [advanceBy_of_queue_nil _ hq, hq]
    · rcases ih (advance ids edges run) with h | h
      · exact Or.inl h
      · right
        rw [advanceBy, h, advance_of_queue_cons hq]
        simp only [List.length_append, List.length_singleton]
        omega

/-- The run that the orderer answers from. -/
def final (ids : List Text) (edges : List (Text × Text)) : Run :=
  advanceBy ids edges ids.length (start ids edges)

theorem sound_final (edges : List (Text × Text)) (distinct : ids.Nodup) :
    Sound ids edges (final ids edges) :=
  sound_advanceBy _ (sound_start edges distinct)

end PipelineBoard.Order
