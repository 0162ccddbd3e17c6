-- How the orderer breaks ties. Ready ids wait first in, first out: an id stands
-- by the last of its sources, and beside the ids that the same source freed by
-- its place in the list.
import Mathlib
import PipelineBoard.Proofs.Lists
import PipelineBoard.Proofs.Order.Queue
import PipelineBoard.Proofs.Order.Reach

namespace PipelineBoard.Order

variable {ids : List Text} {edges : List (Text × Text)} {run : Run}

/-! ## The last source of an id -/

/-- No edge ends at the id. -/
def IsRoot (edges : List (Text × Text)) (v : Text) : Prop := ∀ edge ∈ edges, edge.2 ≠ v

instance (edges : List (Text × Text)) (v : Text) : Decidable (IsRoot edges v) :=
  inferInstanceAs (Decidable (∀ edge ∈ edges, edge.2 ≠ v))

/-- The indices in an order of the sources of the id, one for each edge. -/
def sourceIndices (edges : List (Text × Text)) (order : List Text) (v : Text) : List Nat :=
  (edges.filter fun edge => edge.2 = v).map fun edge => order.idxOf edge.1

/-- The largest index in an order of a source of the id, and zero if it has none. -/
def lastSource (edges : List (Text × Text)) (order : List Text) (v : Text) : Nat :=
  (sourceIndices edges order v).max?.getD 0

theorem mem_sourceIndices {order : List Text} {v : Text} {n : Nat} :
    n ∈ sourceIndices edges order v ↔ ∃ u, (u, v) ∈ edges ∧ order.idxOf u = n := by
  simp [sourceIndices]

theorem exists_source {v : Text} (h : ¬ IsRoot edges v) : ∃ u, (u, v) ∈ edges := by
  unfold IsRoot at h
  push Not at h
  obtain ⟨⟨u, w⟩, hedge, rfl⟩ := h
  exact ⟨u, hedge⟩

theorem not_isRoot_of_source {u v : Text} (h : (u, v) ∈ edges) : ¬ IsRoot edges v :=
  fun hroot => hroot (u, v) h rfl

theorem le_lastSource (order : List Text) {u v : Text} (h : (u, v) ∈ edges) :
    order.idxOf u ≤ lastSource edges order v :=
  List.le_max?_getD_of_mem (mem_sourceIndices.mpr ⟨u, h, rfl⟩)

/-- Some source of the id stands at that index. -/
theorem exists_lastSource (order : List Text) {v : Text} (h : ¬ IsRoot edges v) :
    ∃ u, (u, v) ∈ edges ∧ order.idxOf u = lastSource edges order v := by
  obtain ⟨u, hu⟩ := exists_source h
  have hindex : order.idxOf u ∈ sourceIndices edges order v := mem_sourceIndices.mpr ⟨u, hu, rfl⟩
  have hsome := List.ne_nil_of_mem hindex
  rw [← mem_sourceIndices]
  unfold lastSource
  rcases hmax : (sourceIndices edges order v).max? with _ | n
  · exact absurd (List.max?_eq_none_iff.mp hmax) hsome
  · exact List.max?_mem hmax

/-- What is ordered later does not matter to an id whose sources are ordered. -/
theorem lastSource_append {order : List Text} {v : Text} (h : Fed edges order v)
    (later : List Text) : lastSource edges (order ++ later) v = lastSource edges order v := by
  have hsame : sourceIndices edges (order ++ later) v = sourceIndices edges order v := by
    refine List.map_congr_left fun edge hedge => ?_
    obtain ⟨hedge, hv⟩ := List.mem_filter.mp hedge
    have hv : edge.2 = v := of_decide_eq_true hv
    exact List.idxOf_append_of_mem (h edge.1 (hv ▸ hedge))
  unfold lastSource
  rw [hsame]

/-! ## Turns -/

/-- The number of ids that are ordered when the id is ready. -/
def turn (edges : List (Text × Text)) (order : List Text) (v : Text) : Nat :=
  if IsRoot edges v then 0 else lastSource edges order v + 1

theorem turn_append {order : List Text} {v : Text} (h : Fed edges order v)
    (later : List Text) : turn edges (order ++ later) v = turn edges order v := by
  unfold turn
  rw [lastSource_append h]

theorem turn_le_length {order : List Text} {v : Text} (h : Fed edges order v) :
    turn edges order v ≤ order.length := by
  unfold turn
  split
  · exact Nat.zero_le _
  · rename_i hroot
    obtain ⟨u, hu, hidx⟩ := exists_lastSource order hroot
    rw [← hidx]
    exact List.idxOf_lt_length_iff.mpr (h u hu)

/-- An id that the last ordered one frees has the turn that begins then. -/
theorem turn_of_frees {done : List Text} {id v : Text} (hid : id ∉ done)
    (h : Frees edges done id v) : turn edges (done ++ [id]) v = done.length + 1 := by
  have hlast : (done ++ [id]).idxOf id = done.length := by
    rw [List.idxOf_append_of_notMem hid]
    simp
  have hle := turn_le_length h.2
  have hge := le_lastSource (done ++ [id]) h.1
  unfold turn at hle ⊢
  rw [if_neg (not_isRoot_of_source h.1)] at hle ⊢
  rw [List.length_append, List.length_singleton] at hle
  omega

theorem turn_of_fed_nil {v : Text} (h : Fed edges [] v) (order : List Text) :
    turn edges order v = 0 := by
  have hroot : IsRoot edges v := by
    rintro ⟨u, w⟩ hedge rfl
    exact List.not_mem_nil (h u hedge)
  exact if_pos hroot

/-! ## The order of the queue -/

/-- What an id stands by: its turn, and within a turn its place in the list. -/
def standing (ids : List Text) (edges : List (Text × Text)) (order : List Text)
    (v : Text) : Nat ×ₗ Nat :=
  toLex (turn edges order v, placeIn ids v)

/-- The ordered ids and the ids of the queue behind them stand in order. -/
def InTurn (ids : List Text) (edges : List (Text × Text)) (run : Run) : Prop :=
  (run.done ++ run.queue).Pairwise fun u v =>
    standing ids edges run.done u < standing ids edges run.done v

theorem pairwise_placeIn_lt (distinct : ids.Nodup) :
    ids.Pairwise fun u v => placeIn ids u < placeIn ids v := by
  refine ((pairwise_placeIn distinct).and distinct).imp_of_mem fun {u v} hu hv huv => ?_
  refine Nat.lt_of_le_of_ne huv.1 fun heq => huv.2 (placeIn_inj hu hv heq)

/-- Ids of one turn that are taken out of the list stand in order. -/
theorem pairwise_standing_filter (distinct : ids.Nodup) {p : Text → Bool} {order : List Text}
    {n : Nat} (hturn : ∀ v ∈ ids.filter p, turn edges order v = n) :
    (ids.filter p).Pairwise fun u v => standing ids edges order u < standing ids edges order v := by
  refine ((pairwise_placeIn_lt distinct).filter p).imp_of_mem fun {u v} hu hv huv => ?_
  rw [standing, standing, Prod.Lex.toLex_lt_toLex, hturn u hu, hturn v hv]
  exact Or.inr ⟨rfl, huv⟩

/-- An id that is ready has all of its sources ordered. -/
theorem Sound.fed (h : Sound ids edges run) {v : Text} (hv : v ∈ run.done ++ run.queue) :
    Fed edges run.done v := by
  have hwaiting := (h.ready v (h.listed v hv)).mp hv
  rw [h.counted v, Int.natCast_eq_zero] at hwaiting
  exact openEdges_eq_zero.mp hwaiting

theorem inTurn_start (distinct : ids.Nodup) : InTurn ids edges (start ids edges) := by
  have hready : ∀ v ∈ ids.filter fun v => Fed edges [] v,
      turn edges (start ids edges).done v = 0 := fun v hv =>
    turn_of_fed_nil (of_decide_eq_true (List.mem_filter.mp hv).2) _
  unfold InTurn
  rw [queue_start]
  exact pairwise_standing_filter distinct hready

theorem inTurn_advance (distinct : ids.Nodup) (hsound : Sound ids edges run)
    (h : InTurn ids edges run) : InTurn ids edges (advance ids edges run) := by
  rcases hq : run.queue with _ | ⟨id, queue⟩
  · rw [advance_of_queue_nil _ _ hq]
    exact h
  have hid := hsound.head_not_done hq
  obtain ⟨hqueue, hdone⟩ := advance_eq distinct hsound hq
  have hfed : ∀ v ∈ run.done ++ id :: queue, Fed edges run.done v := fun v hv =>
    hsound.fed (hq ▸ hv)
  have hfreed : ∀ v ∈ ids.filter fun v => Frees edges run.done id v,
      turn edges (run.done ++ [id]) v = run.done.length + 1 := fun v hv =>
    turn_of_frees hid (of_decide_eq_true (List.mem_filter.mp hv).2)
  unfold InTurn at h ⊢
  rw [hq] at h
  rw [hqueue, hdone, List.append_assoc, List.singleton_append, ← List.cons_append,
    ← List.append_assoc, List.pairwise_append]
  refine ⟨h.imp_of_mem fun {u v} hu hv huv => ?_, pairwise_standing_filter distinct hfreed,
    fun u hu v hv => ?_⟩
  · unfold standing at huv ⊢
    rwa [turn_append (hfed u hu), turn_append (hfed v hv)]
  · -- What was in the queue had its turn before this step.
    have hold := turn_le_length (hfed u hu)
    rw [standing, standing, Prod.Lex.toLex_lt_toLex, turn_append (hfed u hu), hfreed v hv]
    exact Or.inl (by omega)

theorem inTurn_advanceBy (distinct : ids.Nodup) (steps : Nat) (hsound : Sound ids edges run)
    (h : InTurn ids edges run) : InTurn ids edges (advanceBy ids edges steps run) := by
  induction steps generalizing run with
  | zero => exact h
  | succ steps ih => exact ih (sound_advance hsound) (inTurn_advance distinct hsound h)

theorem pairwise_standing_topological (edges : List (Text × Text)) (distinct : ids.Nodup) :
    (topological ids edges).Pairwise fun u v =>
      standing ids edges (topological ids edges) u <
        standing ids edges (topological ids edges) v := by
  have h : InTurn ids edges (final ids edges) :=
    inTurn_advanceBy distinct _ (sound_start edges distinct) (inTurn_start distinct)
  unfold InTurn at h
  rw [queue_final ids edges, List.append_nil] at h
  exact h

/-! ## Who stands before whom -/

theorem placeIn_lt_iff (distinct : ids.Nodup) {u v : Text} (hu : u ∈ ids) (hv : v ∈ ids) :
    placeIn ids u < placeIn ids v ↔ ids.idxOf u < ids.idxOf v :=
  (idxOf_lt_iff (pairwise_placeIn_lt distinct) hu hv).symm

/-- Ties are broken first in, first out. In the order of distinct ids, those
without sources come first, as they are listed. Any other id has its sources in
the order, and of two such ids the one whose last source stands first comes
first, and the one that is listed first if they have the same last source. -/
theorem ties_are_broken_first_in_first_out (ids : List Text) (edges : List (Text × Text))
    (distinct : ids.Nodup) :
    let order := topological ids edges
    (∀ v ∈ order, ¬ IsRoot edges v →
      IsGreatest {n | ∃ u ∈ order, (u, v) ∈ edges ∧ order.idxOf u = n} (lastSource edges order v)) ∧
    ∀ v ∈ order, ∀ w ∈ order,
      (IsRoot edges v → ¬ IsRoot edges w → order.idxOf v < order.idxOf w) ∧
      (IsRoot edges v → IsRoot edges w →
        (order.idxOf v < order.idxOf w ↔ ids.idxOf v < ids.idxOf w)) ∧
      (¬ IsRoot edges v → ¬ IsRoot edges w →
        (order.idxOf v < order.idxOf w ↔
          toLex (lastSource edges order v, ids.idxOf v) <
            toLex (lastSource edges order w, ids.idxOf w))) := by
  intro order
  have hsources : ∀ {u v : Text}, (u, v) ∈ edges → v ∈ order → u ∈ order :=
    fun huv hv => (source_before_target distinct huv hv).1
  refine ⟨fun v hv hroot => ⟨?_, ?_⟩, fun v hv w hw => ?_⟩
  · obtain ⟨u, hu, hidx⟩ := exists_lastSource order hroot
    exact ⟨u, hsources hu hv, hu, hidx⟩
  · rintro n ⟨u, _, hu, rfl⟩
    exact le_lastSource order hu
  have hstanding := idxOf_lt_iff (pairwise_standing_topological edges distinct) hv hw
  have hplace := placeIn_lt_iff distinct (mem_of_mem_topological distinct hv)
    (mem_of_mem_topological distinct hw)
  rw [standing, standing, Prod.Lex.toLex_lt_toLex, hplace] at hstanding
  simp only [turn] at hstanding
  refine ⟨fun hrootv hrootw => ?_, fun hrootv hrootw => ?_, fun hrootv hrootw => ?_⟩
  · rw [if_pos hrootv, if_neg hrootw] at hstanding
    exact hstanding.mpr (Or.inl (Nat.succ_pos _))
  · rw [if_pos hrootv, if_pos hrootw] at hstanding
    simpa using hstanding
  · rw [if_neg hrootv, if_neg hrootw] at hstanding
    simpa [Prod.Lex.toLex_lt_toLex] using hstanding

/-- Six ids with parallel edges and a self-loop. The id `x` overtakes `d`, which
is listed first, because its source is ordered first; `d` and `c` become ready
together, and keep the order of the list. -/
theorem the_ties_of_six_ids :
    let ids : List Text := ["d", "c", "b", "z", "a", "x"]
    let edges : List (Text × Text) :=
      [("a", "c"), ("a", "c"), ("b", "c"), ("a", "d"), ("b", "x"), ("z", "z")]
    let order := topological ids edges
    ids.Nodup ∧ order = ["b", "a", "x", "d", "c"] ∧
      (order.idxOf ("x" : Text) < order.idxOf ("d" : Text) ↔ toLex (0, 5) < toLex (1, 0)) ∧
      (order.idxOf ("d" : Text) < order.idxOf ("c" : Text) ↔ toLex (1, 0) < toLex (1, 1)) := by
  intro ids edges order
  have hdistinct : ids.Nodup := by decide
  have horder : topological ids edges = ["b", "a", "x", "d", "c"] := by cbv
  obtain ⟨_, hties⟩ := ties_are_broken_first_in_first_out ids edges hdistinct
  have hmem : ∀ v ∈ (["b", "a", "x", "d", "c"] : List Text), v ∈ topological ids edges := fun v hv =>
    horder ▸ hv
  have hx := (hties "x" (hmem "x" (by decide)) "d" (hmem "d" (by decide))).2.2
    (by decide) (by decide)
  have hd := (hties "d" (hmem "d" (by decide)) "c" (hmem "c" (by decide))).2.2
    (by decide) (by decide)
  have hlast : lastSource edges (topological ids edges) "x" = 0 ∧
      lastSource edges (topological ids edges) "d" = 1 ∧
      lastSource edges (topological ids edges) "c" = 1 := by
    rw [horder]
    decide
  rw [hlast.1, hlast.2.1] at hx
  rw [hlast.2.1, hlast.2.2] at hd
  exact ⟨hdistinct, horder, hx, hd⟩

end PipelineBoard.Order
