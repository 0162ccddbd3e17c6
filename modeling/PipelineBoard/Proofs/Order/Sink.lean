-- An id more that no edge leaves. It waits in the queue like any other, but
-- the ids before it keep their order, and it is left out only if one of them
-- is.
import PipelineBoard.Proofs.Order.Queue
import PipelineBoard.Proofs.Order.Reach

namespace PipelineBoard.Order

/-- The ids but one. -/
def without (sink : Text) (ids : List Text) : List Text := ids.filter (· != sink)

variable {sink : Text} {ids : List Text} {edges edges' : List (Text × Text)}

theorem without_append (sink : Text) (us vs : List Text) :
    without sink (us ++ vs) = without sink us ++ without sink vs := List.filter_append ..

theorem without_singleton_self (sink : Text) : without sink [sink] = [] := by simp [without]

theorem without_cons_of_ne {id : Text} (h : id ≠ sink) (us : List Text) :
    without sink (id :: us) = id :: without sink us := List.filter_cons_of_pos (by simpa using h)

theorem mem_without {id : Text} (h : id ≠ sink) {us : List Text} :
    id ∈ without sink us ↔ id ∈ us := by
  simp [without, h]

theorem without_filter_append {p p' : Text → Bool} (fresh : sink ∉ ids)
    (h : ∀ v ∈ ids, p' v = p v) : without sink ((ids ++ [sink]).filter p') = ids.filter p := by
  have hrest : without sink ([sink].filter p') = [] := by
    rw [without, List.filter_filter]
    simp
  rw [List.filter_append, without_append, hrest, List.append_nil, without, List.filter_filter]
  refine List.filter_congr fun v hv => ?_
  have hne : v ≠ sink := fun heq => fresh (heq ▸ hv)
  simp [hne, h v hv]

/-- Edges into an id that is not listed come on top of the others. They come
from listed ids, and none leaves it. -/
structure AddsSink (sink : Text) (ids : List Text) (edges edges' : List (Text × Text)) :
    Prop where
  fresh : sink ∉ ids
  others : ∀ u v, v ≠ sink → ((u, v) ∈ edges' ↔ (u, v) ∈ edges)
  last : ∀ v, (sink, v) ∉ edges'
  arrivals : ∀ u, (u, sink) ∈ edges' → u ∈ ids

namespace AddsSink

theorem ne_of_mem (h : AddsSink sink ids edges edges') {v : Text} (hv : v ∈ ids) : v ≠ sink :=
  fun heq => h.fresh (heq ▸ hv)

theorem nodup (h : AddsSink sink ids edges edges') (distinct : ids.Nodup) :
    (ids ++ [sink]).Nodup := by
  rw [List.nodup_append]
  refine ⟨distinct, List.nodup_singleton sink, fun v hv w hw => ?_⟩
  rw [List.mem_singleton.mp hw]
  exact h.ne_of_mem hv

theorem fed_iff (h : AddsSink sink ids edges edges') {done : List Text} {v : Text}
    (hv : v ∈ ids) : Fed edges' done v ↔ Fed edges (without sink done) v := by
  have hsource : ∀ u, (u, v) ∈ edges → u ≠ sink := by
    rintro u huv rfl
    exact h.last v ((h.others u v (h.ne_of_mem hv)).mpr huv)
  unfold Fed
  refine forall_congr' fun u => ?_
  rw [h.others u v (h.ne_of_mem hv)]
  exact imp_congr_right fun huv => (mem_without (hsource u huv)).symm

theorem frees_iff (h : AddsSink sink ids edges edges') {done : List Text} {id v : Text}
    (hid : id ≠ sink) (hv : v ∈ ids) :
    Frees edges' done id v ↔ Frees edges (without sink done) id v := by
  have hnext : without sink done ++ [id] = without sink (done ++ [id]) := by
    rw [without_append, without_cons_of_ne hid]
    rfl
  unfold Frees
  rw [hnext, h.fed_iff hv, h.others id v (h.ne_of_mem hv)]

/-- A step that orders the sink matches no step, and every other step matches
the step of the same id. -/
theorem simulates (h : AddsSink sink ids edges edges') (distinct : ids.Nodup) :
    Simulates ids edges (ids ++ [sink]) edges' fun run run' =>
      without sink run'.queue = run.queue ∧ without sink run'.done = run.done where
  start := by
    refine ⟨?_, rfl⟩
    rw [queue_start, queue_start]
    exact without_filter_append h.fresh fun v hv => decide_eq_decide.mpr (h.fed_iff hv)
  step := by
    rintro run run' hrun hrun' ⟨hqueue, hdone⟩ id queue' hq'
    obtain ⟨hqueue', hnext'⟩ := advance_eq (h.nodup distinct) hrun' hq'
    rw [hq'] at hqueue
    by_cases hid : id = sink
    · subst hid
      have hnone : ((ids ++ [id]).filter fun v => Frees edges' run'.done id v) = [] :=
        List.filter_eq_nil_iff.mpr fun v _ => by simp [Frees, h.last v]
      left
      refine ⟨?_, by rw [hnext', without_append, without_singleton_self, List.append_nil, hdone]⟩
      rw [hqueue', hnone, List.append_nil, ← hqueue]
      simp [without]
    · rw [without_cons_of_ne hid] at hqueue
      obtain ⟨hqueue₁, hnext₁⟩ := advance_eq distinct hrun hqueue.symm
      right
      refine ⟨?_, by rw [hnext', hnext₁, without_append, without_cons_of_ne hid, hdone]; rfl⟩
      rw [hqueue', hqueue₁, without_append]
      congr 1
      refine without_filter_append h.fresh fun v hv => decide_eq_decide.mpr ?_
      rw [← hdone]
      exact h.frees_iff hid hv
  ended := by
    rintro run run' ⟨hqueue, _⟩ hq'
    rw [← hqueue, hq']
    rfl

theorem topological_without (h : AddsSink sink ids edges edges') (distinct : ids.Nodup) :
    without sink (topological (ids ++ [sink]) edges') = topological ids edges :=
  ((h.simulates distinct).final distinct (h.nodup distinct)).2

theorem mem_topological_of_ne (h : AddsSink sink ids edges edges') (distinct : ids.Nodup)
    {v : Text} (hv : v ≠ sink) :
    v ∈ topological (ids ++ [sink]) edges' ↔ v ∈ topological ids edges := by
  rw [← h.topological_without distinct, mem_without hv]

/-- A sink whose sources all have their places has its own. -/
theorem sink_mem_topological (h : AddsSink sink ids edges edges') (distinct : ids.Nodup)
    (hall : ∀ v ∈ ids, v ∈ topological ids edges) : sink ∈ topological (ids ++ [sink]) edges' := by
  by_contra hleft
  obtain ⟨u, hu, hlead⟩ := exists_open_edge (sound_final edges' (h.nodup distinct))
    (queue_final (ids ++ [sink]) edges') (by simp) hleft
  have hlisted := h.arrivals u hlead
  exact hu ((h.mem_topological_of_ne distinct (h.ne_of_mem hlisted)).mpr (hall u hlisted))

/-- The order with the sink leaves some id out just if the order without it
does. -/
theorem forall_mem_iff (h : AddsSink sink ids edges edges') (distinct : ids.Nodup) :
    (∀ v ∈ ids ++ [sink], v ∈ topological (ids ++ [sink]) edges') ↔
      ∀ v ∈ ids, v ∈ topological ids edges := by
  constructor
  · intro hall v hv
    exact (h.mem_topological_of_ne distinct (h.ne_of_mem hv)).mp (hall v (List.mem_append_left _ hv))
  · intro hall v hv
    rcases List.mem_append.mp hv with hv | hv
    · exact (h.mem_topological_of_ne distinct (h.ne_of_mem hv)).mpr (hall v hv)
    · rw [List.mem_singleton.mp hv]
      exact h.sink_mem_topological distinct hall

end AddsSink

end PipelineBoard.Order
