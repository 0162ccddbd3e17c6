-- The run of the orderer over any list of ids, repeats allowed. An id that an edge
-- leads to becomes ready once at most, however often its sources are ordered, so
-- as many steps as there are ids empty the queue.
import PipelineBoard.Proofs.Order.Run

namespace PipelineBoard.Order

variable {ids : List Text} {edges : List (Text × Text)} {run : Run}

/-! ## The invariant -/

/-- What holds before and after each step, whatever the list of ids. A count that
has come down to zero or below frees its id no more. -/
structure Tallied (ids : List Text) (edges : List (Text × Text)) (run : Run) : Prop where
  listed : ∀ v ∈ run.done ++ run.queue, v ∈ ids
  roots : ∀ v, (∀ u, (u, v) ∉ edges) → (run.done ++ run.queue).count v ≤ ids.count v
  once : ∀ u v, (u, v) ∈ edges → (run.done ++ run.queue).count v ≤ 1
  waits : ∀ v, 0 < run.waiting v → v ∉ run.done ++ run.queue

theorem tallied_start (ids : List Text) (edges : List (Text × Text)) :
    Tallied ids edges (start ids edges) := by
  have hready : ∀ v, v ∈ (start ids edges).done ++ (start ids edges).queue ↔
      v ∈ ids ∧ (start ids edges).waiting v = 0 := by
    intro v
    simp [start]
  refine ⟨fun v hv => ((hready v).mp hv).1, fun v _ => ?_, fun u v hlead => ?_, fun v hpos hv => ?_⟩
  · rw [start, List.nil_append]
    exact List.filter_sublist.count_le v
  · have hwaits : (start ids edges).waiting v ≠ 0 := by
      rw [start, Int.natCast_ne_zero, Ne, List.countP_eq_zero]
      exact fun hnone => hnone (u, v) hlead (decide_eq_true rfl)
    have hnot : v ∉ (start ids edges).done ++ (start ids edges).queue :=
      fun hv => hwaits ((hready v).mp hv).2
    rw [List.count_eq_zero.mpr hnot]
    exact Nat.zero_le 1
  · have hzero := ((hready v).mp hv).2
    omega

theorem tallied_advance (h : Tallied ids edges run) : Tallied ids edges (advance ids edges run) := by
  rcases hq : run.queue with _ | ⟨id, queue⟩
  · rw [advance_of_queue_nil _ _ hq]
    exact h
  obtain ⟨listed, roots, once, waits⟩ := h
  rw [hq] at listed roots once waits
  have hsplit : run.done ++ [id] ++ (queue ++ freed ids edges run.waiting id) =
      (run.done ++ id :: queue) ++ freed ids edges run.waiting id := by simp
  have hfreed := count_freed ids edges run.waiting id
  rw [advance_of_queue_cons hq]
  refine ⟨?_, ?_, ?_, ?_⟩ <;> simp only [hsplit]
  · intro v hv
    rcases List.mem_append.mp hv with hv | hv
    · exact listed v hv
    · exact (mem_freed.mp hv).1
  · intro v hroot
    have hnone : (targets edges id).count v = 0 := by
      rw [List.count_eq_zero, mem_targets]
      exact hroot id
    rw [List.count_append, hfreed, if_neg (by omega), Nat.add_zero]
    exact roots v hroot
  · intro u v hlead
    have hold := once u v hlead
    rw [List.count_append, hfreed]
    split
    · rename_i hfrees
      have hnone := List.count_eq_zero.mpr (waits v hfrees.2.1)
      omega
    · exact hold
  · intro v hpos hv
    rcases List.mem_append.mp hv with hv | hv
    · exact waits v (by omega) hv
    · have hmet := (mem_freed.mp hv).2.2
      omega

theorem tallied_advanceBy (steps : Nat) (h : Tallied ids edges run) :
    Tallied ids edges (advanceBy ids edges steps run) := by
  induction steps generalizing run with
  | zero => exact h
  | succ steps ih => exact ih (tallied_advance h)

/-- No id is ordered or waits more often than it is listed. -/
theorem Tallied.count_le (h : Tallied ids edges run) (v : Text) :
    (run.done ++ run.queue).count v ≤ ids.count v := by
  by_cases hv : v ∈ run.done ++ run.queue
  · by_cases hlead : ∃ u, (u, v) ∈ edges
    · obtain ⟨u, hlead⟩ := hlead
      exact Nat.le_trans (h.once u v hlead) (List.count_pos_iff.mpr (h.listed v hv))
    · exact h.roots v (not_exists.mp hlead)
  · rw [List.count_eq_zero.mpr hv]
    exact Nat.zero_le _

/-! ## The end of the run -/

theorem tallied_final (ids : List Text) (edges : List (Text × Text)) :
    Tallied ids edges (final ids edges) :=
  tallied_advanceBy _ (tallied_start ids edges)

/-- As many steps as ids are enough. -/
theorem queue_final (ids : List Text) (edges : List (Text × Text)) :
    (final ids edges).queue = [] := by
  have hlength : ((final ids edges).done ++ (final ids edges).queue).length ≤ ids.length :=
    (List.subperm_iff_count.mpr (tallied_final ids edges).count_le).length_le
  rw [List.length_append] at hlength
  rcases queue_nil_or_length_done ids edges ids.length (start ids edges) with h | h
  · exact h
  · apply List.eq_nil_of_length_eq_zero
    unfold final at hlength ⊢
    simp only [start, List.length_nil] at h hlength ⊢
    omega

theorem count_topological_le (ids : List Text) (edges : List (Text × Text)) (v : Text) :
    (topological ids edges).count v ≤ ids.count v := by
  have h := (tallied_final ids edges).count_le v
  rw [queue_final, List.append_nil] at h
  exact h

/-- An id that an edge leads to is ordered once at most. -/
theorem count_topological_of_target (ids : List Text) {u v : Text} (h : (u, v) ∈ edges) :
    (topological ids edges).count v ≤ 1 := by
  have hone := (tallied_final ids edges).once u v h
  rw [queue_final, List.append_nil] at hone
  exact hone

end PipelineBoard.Order
