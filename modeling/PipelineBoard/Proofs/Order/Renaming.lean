-- The order of ids under other names. It is the order of the ids before, name
-- by name: neither the text of an id nor the number and order of the edges
-- takes part in it.
import PipelineBoard.Proofs.Order.Queue

namespace PipelineBoard.Order

variable {f : Text → Text} {ids : List Text} {edges edges' : List (Text × Text)}

/-- Listed ids and their sources under other names. A listed id shares its
name with no other id, and the edges into listed ids lead between the names of
what they led between before. -/
structure Renames (f : Text → Text) (ids : List Text)
    (edges edges' : List (Text × Text)) : Prop where
  apart : ∀ u v, (u ∈ ids ∨ ∃ w ∈ ids, (u, w) ∈ edges) → v ∈ ids → f u = f v → u = v
  leads : ∀ s, ∀ v ∈ ids, (s, f v) ∈ edges' ↔ ∃ u, (u, v) ∈ edges ∧ f u = s

namespace Renames

theorem nodup (h : Renames f ids edges edges') (distinct : ids.Nodup) : (ids.map f).Nodup :=
  distinct.map_on fun u hu v hv huv => h.apart u v (Or.inl hu) hv huv

theorem fed_iff (h : Renames f ids edges edges') {done : List Text} (hdone : done ⊆ ids)
    {v : Text} (hv : v ∈ ids) : Fed edges' (done.map f) (f v) ↔ Fed edges done v := by
  constructor
  · intro hfed u huv
    obtain ⟨w, hw, hname⟩ := List.mem_map.mp (hfed (f u) ((h.leads _ v hv).mpr ⟨u, huv, rfl⟩))
    have hsame : u = w := h.apart u w (Or.inr ⟨v, hv, huv⟩) (hdone hw) hname.symm
    exact hsame ▸ hw
  · intro hfed s hs
    obtain ⟨u, huv, rfl⟩ := (h.leads s v hv).mp hs
    exact List.mem_map_of_mem (hfed u huv)

theorem frees_iff (h : Renames f ids edges edges') {done : List Text} (hdone : done ⊆ ids)
    {id v : Text} (hid : id ∈ ids) (hv : v ∈ ids) :
    Frees edges' (done.map f) (f id) (f v) ↔ Frees edges done id v := by
  have hnext : done.map f ++ [f id] = (done ++ [id]).map f := by simp
  have hsub : done ++ [id] ⊆ ids := by
    intro u hu
    rcases List.mem_append.mp hu with hu | hu
    · exact hdone hu
    · exact List.mem_singleton.mp hu ▸ hid
  have hlead : (f id, f v) ∈ edges' ↔ (id, v) ∈ edges := by
    rw [h.leads _ v hv]
    constructor
    · rintro ⟨u, huv, hname⟩
      exact h.apart u id (Or.inr ⟨v, hv, huv⟩) hid hname ▸ huv
    · intro hlead
      exact ⟨id, hlead, rfl⟩
  unfold Frees
  rw [hnext, h.fed_iff hsub hv, hlead]

/-- Every step of the one run is the step of the other under the new names. -/
theorem simulates (h : Renames f ids edges edges') (distinct : ids.Nodup) :
    Simulates ids edges (ids.map f) edges' fun run run' =>
      run'.queue = run.queue.map f ∧ run'.done = run.done.map f where
  start := by
    refine ⟨?_, rfl⟩
    rw [queue_start, queue_start, List.filter_map]
    congr 1
    refine List.filter_congr fun v hv => decide_eq_decide.mpr ?_
    exact h.fed_iff (List.nil_subset ids) hv
  step := by
    rintro run run' hrun hrun' ⟨hqueue, hdone⟩ id' queue' hq'
    rcases hq : run.queue with _ | ⟨id, queue⟩
    · rw [hq, hq'] at hqueue
      cases hqueue
    rw [hq, hq', List.map_cons, List.cons.injEq] at hqueue
    obtain ⟨rfl, rfl⟩ := hqueue
    obtain ⟨hqueue, hnext⟩ := advance_eq distinct hrun hq
    obtain ⟨hqueue', hnext'⟩ := advance_eq (h.nodup distinct) hrun' hq'
    have hid : id ∈ ids := hrun.listed id (by simp [hq])
    have hsub : run.done ⊆ ids := fun u hu => hrun.listed u (List.mem_append_left _ hu)
    right
    refine ⟨?_, by rw [hnext, hnext', hdone, List.map_append, List.map_singleton]⟩
    rw [hqueue, hqueue', hdone, List.map_append, List.filter_map]
    congr 2
    refine List.filter_congr fun v hv => decide_eq_decide.mpr ?_
    exact h.frees_iff hsub hid hv
  ended := by
    rintro run run' ⟨hqueue, _⟩ hq'
    rw [hq'] at hqueue
    exact List.map_eq_nil_iff.mp hqueue.symm

theorem topological_map (h : Renames f ids edges edges') (distinct : ids.Nodup) :
    topological (ids.map f) edges' = (topological ids edges).map f :=
  ((h.simulates distinct).final distinct (h.nodup distinct)).2

end Renames

end PipelineBoard.Order
