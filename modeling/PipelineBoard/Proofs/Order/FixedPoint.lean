-- Ordering an order again. The ids that a run orders become ready in the same
-- steps, and side by side in the same order, when they are listed as they were
-- ordered: so the dependency order of a dependency order is itself.
import PipelineBoard.Proofs.Order.Ties

namespace PipelineBoard.Order

variable {ids : List Text} {edges : List (Text × Text)}

/-! ## What a run has in its queue comes into the order -/

/-- A step keeps what is ordered and what waits, and puts what it frees behind. -/
theorem prefix_advance (ids : List Text) (edges : List (Text × Text)) (run : Run) :
    run.done ++ run.queue <+: (advance ids edges run).done ++ (advance ids edges run).queue := by
  rcases hq : run.queue with _ | ⟨id, queue⟩
  · rw [advance_of_queue_nil _ _ hq, hq]
  · rw [advance_of_queue_cons hq]
    exact ⟨freed ids edges run.waiting id, by simp⟩

theorem prefix_advanceBy (ids : List Text) (edges : List (Text × Text)) (steps : Nat)
    (run : Run) :
    run.done ++ run.queue <+:
      (advanceBy ids edges steps run).done ++ (advanceBy ids edges steps run).queue := by
  induction steps generalizing run with
  | zero => exact List.prefix_rfl
  | succ steps ih => exact (prefix_advance ids edges run).trans (ih (advance ids edges run))

/-- After any number of steps, the order goes on from what is ordered and what
waits. -/
theorem prefix_topological (ids : List Text) (edges : List (Text × Text)) (steps : Nat) :
    (advanceBy ids edges steps (start ids edges)).done ++
      (advanceBy ids edges steps (start ids edges)).queue <+: topological ids edges := by
  have hlong := prefix_advanceBy ids edges ids.length (advanceBy ids edges steps (start ids edges))
  have hfinal : advanceBy ids edges ids.length (advanceBy ids edges steps (start ids edges)) =
      final ids edges := by
    rw [← advanceBy_add, Nat.add_comm, advanceBy_add]
    exact advanceBy_of_queue_nil steps (queue_final ids edges)
  rw [hfinal, queue_final ids edges, List.append_nil] at hlong
  exact hlong

/-! ## Ids that become ready together -/

/-- Ids that come into the order in one turn stand there as they are listed. -/
theorem filter_topological (distinct : ids.Nodup) {p : Text → Bool} {n : Nat}
    (hin : ∀ v ∈ ids, p v = true → v ∈ topological ids edges)
    (hturn : ∀ v, p v = true → turn edges (topological ids edges) v = n) :
    (topological ids edges).filter p = ids.filter p := by
  have hmem : ∀ v, v ∈ (topological ids edges).filter p ↔ v ∈ ids ∧ p v = true := by
    intro v
    rw [List.mem_filter]
    exact ⟨fun ⟨hv, hp⟩ => ⟨mem_of_mem_topological distinct hv, hp⟩,
      fun ⟨hv, hp⟩ => ⟨hin v hv hp, hp⟩⟩
  refine eq_filter_of_placeIn distinct ((topological_nodup edges distinct).filter p) hmem ?_
  refine ((pairwise_standing_topological edges distinct).filter p).imp_of_mem ?_
  intro u v hu hv hlt
  rw [standing, standing, Prod.Lex.toLex_lt_toLex, hturn u (List.mem_filter.mp hu).2,
    hturn v (List.mem_filter.mp hv).2] at hlt
  rcases hlt with hlt | ⟨_, hlt⟩
  · exact absurd hlt (Nat.lt_irrefl n)
  · exact Nat.le_of_lt hlt

/-! ## The second run -/

/-- The run over the ordered ids goes step by step as the run that ordered
them. -/
theorem simulates_topological (edges : List (Text × Text)) (distinct : ids.Nodup) :
    Simulates ids edges (topological ids edges) edges fun run run' =>
      (∃ steps, run = advanceBy ids edges steps (start ids edges)) ∧
        run'.queue = run.queue ∧ run'.done = run.done where
  start := by
    refine ⟨⟨0, rfl⟩, ?_, rfl⟩
    have hin : ∀ v ∈ ids, decide (Fed edges [] v) = true → v ∈ topological ids edges := by
      intro v hv hfed
      refine (prefix_topological ids edges 0).mem ?_
      rw [advanceBy_zero, queue_start]
      exact List.mem_append_right _ (List.mem_filter.mpr ⟨hv, hfed⟩)
    rw [queue_start, queue_start]
    exact filter_topological distinct hin fun v hfed => turn_of_fed_nil (of_decide_eq_true hfed) _
  step := by
    rintro run run' hrun hrun' ⟨⟨steps, hsteps⟩, hqueue, hdone⟩ id queue hq'
    have hq : run.queue = id :: queue := by rw [← hqueue, hq']
    have hnext : advance ids edges run = advanceBy ids edges (steps + 1) (start ids edges) := by
      rw [advanceBy_add, ← hsteps]
      rfl
    obtain ⟨hqueue₁, hdone₁⟩ := advance_eq distinct hrun hq
    obtain ⟨hqueue₂, hdone₂⟩ := advance_eq (topological_nodup edges distinct) hrun' hq'
    -- What this step frees waits after it, and so comes into the order.
    have hprefix := prefix_topological ids edges (steps + 1)
    rw [← hnext, hqueue₁, hdone₁] at hprefix
    have hin : ∀ v ∈ ids, decide (Frees edges run.done id v) = true →
        v ∈ topological ids edges := fun v hv hfrees =>
      hprefix.mem (by simp [hv, of_decide_eq_true hfrees])
    have hturn : ∀ v, decide (Frees edges run.done id v) = true →
        turn edges (topological ids edges) v = run.done.length + 1 := by
      intro v hfrees
      have hfrees := of_decide_eq_true hfrees
      obtain ⟨later, hlater⟩ := (List.prefix_append _ _).trans hprefix
      rw [← hlater, turn_append hfrees.2]
      exact turn_of_frees (hrun.head_not_done hq) hfrees
    refine Or.inr ⟨⟨steps + 1, hnext⟩, ?_, by rw [hdone₁, hdone₂, hdone]⟩
    rw [hqueue₁, hqueue₂, hdone, filter_topological distinct hin hturn]
  ended := by
    rintro run run' ⟨_, hqueue, _⟩ hq'
    rw [← hqueue, hq']

theorem topological_topological (edges : List (Text × Text)) (distinct : ids.Nodup) :
    topological (topological ids edges) edges = topological ids edges :=
  ((simulates_topological edges distinct).final distinct (topological_nodup edges distinct)).2.2

end PipelineBoard.Order
