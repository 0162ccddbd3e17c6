-- The queue of a run over distinct ids. Which ids a step frees, and in which
-- order, follows from the relation of the edges alone, however often and in
-- whatever order the edges are listed. Two runs that match step by step end
-- in orders that match.
import Mathlib.Data.List.Sort
import PipelineBoard.Proofs.Order.Repeats

namespace PipelineBoard.Order

variable {ids ids' : List Text} {edges edges' : List (Text × Text)} {run : Run}

/-! ## Places in a list of distinct ids -/

theorem placeIn_cons_self {id : Text} (h : id ∉ ids) : placeIn (id :: ids) id = 1 := by
  unfold placeIn
  rw [List.reverse_cons, List.idxOf_append_of_notMem (by simpa using h)]
  simp

theorem placeIn_cons_of_mem (id : Text) {v : Text} (h : v ∈ ids) :
    placeIn (id :: ids) v = placeIn ids v + 1 := by
  have hmem : v ∈ ids.reverse := List.mem_reverse.mpr h
  have hlt := List.idxOf_lt_length_iff.mpr hmem
  unfold placeIn
  rw [List.reverse_cons, List.idxOf_append_of_mem hmem]
  simp only [List.length_cons, List.length_reverse] at hlt ⊢
  omega

/-- Distinct ids stand in the order of their places. -/
theorem pairwise_placeIn (distinct : ids.Nodup) :
    ids.Pairwise fun a b => placeIn ids a ≤ placeIn ids b := by
  induction ids with
  | nil => exact List.Pairwise.nil
  | cons id ids ih =>
    obtain ⟨hid, hrest⟩ := List.nodup_cons.mp distinct
    refine List.pairwise_cons.mpr ⟨fun v hv => ?_, (ih hrest).imp_of_mem fun {a b} ha hb hle => ?_⟩
    · rw [placeIn_cons_self hid, placeIn_cons_of_mem id hv]
      omega
    · rw [placeIn_cons_of_mem id ha, placeIn_cons_of_mem id hb]
      omega

theorem placeIn_inj {u v : Text} (hu : u ∈ ids) (hv : v ∈ ids)
    (h : placeIn ids u = placeIn ids v) : u = v := by
  have hu := List.mem_reverse.mpr hu
  have hv := List.mem_reverse.mpr hv
  have hult := List.idxOf_lt_length_iff.mpr hu
  have hvlt := List.idxOf_lt_length_iff.mpr hv
  unfold placeIn at h
  rw [List.length_reverse] at hult hvlt
  exact (List.idxOf_inj hu).mp (by omega)

/-- Ids of the list that stand in the order of their places are a part of the
list. -/
theorem eq_filter_of_placeIn (distinct : ids.Nodup) {some : List Text} (hsome : some.Nodup)
    {p : Text → Bool} (hmem : ∀ v, v ∈ some ↔ v ∈ ids ∧ p v = true)
    (hup : some.Pairwise fun a b => placeIn ids a ≤ placeIn ids b) : some = ids.filter p := by
  have hperm : some.Perm (ids.filter p) := by
    rw [List.perm_ext_iff_of_nodup hsome (distinct.filter p)]
    intro v
    rw [hmem, List.mem_filter]
  refine hperm.eq_of_pairwise (fun a b ha hb hab hba => ?_) hup
    ((pairwise_placeIn distinct).filter p)
  exact placeIn_inj ((hmem a).mp ha).1 (List.mem_filter.mp hb).1 (Nat.le_antisymm hab hba)

/-- Ids of the list, each once, are put into the order of the list. -/
theorem mergeSort_placeIn (distinct : ids.Nodup) {ready : List Text} (hready : ready.Nodup)
    {p : Text → Bool} (hmem : ∀ v, v ∈ ready ↔ v ∈ ids ∧ p v = true) :
    (ready.mergeSort fun a b => placeIn ids a ≤ placeIn ids b) = ids.filter p := by
  have hperm := List.mergeSort_perm ready fun a b => placeIn ids a ≤ placeIn ids b
  refine eq_filter_of_placeIn distinct (hperm.nodup_iff.mpr hready) (fun v => ?_) ?_
  · rw [hperm.mem_iff, hmem]
  · refine (List.pairwise_mergeSort ?_ ?_ ready).imp of_decide_eq_true
    · intro a b c hab hbc
      simp only [decide_eq_true_eq] at hab hbc ⊢
      omega
    · intro a b
      simp only [Bool.or_eq_true, decide_eq_true_eq]
      omega

/-! ## What a step frees -/

/-- Every source of an id is among the given ids. -/
def Fed (edges : List (Text × Text)) (done : List Text) (v : Text) : Prop :=
  ∀ u, (u, v) ∈ edges → u ∈ done

/-- An id feeds another one, and is the last of its sources. -/
def Frees (edges : List (Text × Text)) (done : List Text) (id v : Text) : Prop :=
  (id, v) ∈ edges ∧ Fed edges (done ++ [id]) v

instance (edges : List (Text × Text)) (done : List Text) (v : Text) :
    Decidable (Fed edges done v) :=
  decidable_of_iff (∀ edge ∈ edges, edge.2 = v → edge.1 ∈ done)
    ⟨fun h u hu => h (u, v) hu rfl, fun h edge hedge hv => h edge.1 (hv ▸ hedge)⟩

instance (edges : List (Text × Text)) (done : List Text) (id v : Text) :
    Decidable (Frees edges done id v) :=
  inferInstanceAs (Decidable (_ ∧ _))

/-- The ids without sources are ready first. -/
theorem queue_start (ids : List Text) (edges : List (Text × Text)) :
    (start ids edges).queue = ids.filter fun v => Fed edges [] v := by
  refine List.filter_congr fun v _ => ?_
  have hfed : Fed edges [] v ↔ ∀ edge ∈ edges, edge.2 ≠ v := by
    constructor
    · rintro h ⟨u, w⟩ hedge rfl
      exact List.not_mem_nil (h u hedge)
    · intro h u hu
      exact absurd rfl (h (u, v) hu)
  simp only [hfed, Int.natCast_eq_zero, List.countP_eq_zero, decide_eq_true_eq]

/-- A step frees the ids that the ordered id is the last source of, in the
order of the list. -/
theorem freed_eq_filter (distinct : ids.Nodup) (h : Sound ids edges run) {id : Text}
    {queue : List Text} (hq : run.queue = id :: queue) :
    freed ids edges run.waiting id = ids.filter fun v => Frees edges run.done id v := by
  have hid := h.head_not_done hq
  have hfrees : ∀ v, Frees edges run.done id v ↔
      0 < run.waiting v ∧ run.waiting v ≤ (targets edges id).count v := by
    intro v
    have hsplit := openEdges_append edges hid v
    have htarget := List.count_pos_iff (a := v) (l := targets edges id)
    rw [mem_targets] at htarget
    unfold Frees Fed
    rw [← openEdges_eq_zero, h.counted v, ← htarget]
    omega
  have hready := (List.mergeSort_perm ((targets edges id).foldl (meet ids) (run.waiting, [])).2
    fun a b => placeIn ids a ≤ placeIn ids b)
  refine mergeSort_placeIn distinct (hready.nodup_iff.mp (freed_nodup ids edges run.waiting id)) ?_
  intro v
  rw [← hready.mem_iff, decide_eq_true_iff, hfrees]
  exact mem_freed

/-- One step of a sound run, by the relation of the edges. -/
theorem advance_eq (distinct : ids.Nodup) (h : Sound ids edges run) {id : Text}
    {queue : List Text} (hq : run.queue = id :: queue) :
    (advance ids edges run).queue =
        queue ++ (ids.filter fun v => Frees edges run.done id v) ∧
      (advance ids edges run).done = run.done ++ [id] := by
  rw [advance_of_queue_cons hq, freed_eq_filter distinct h hq]
  exact ⟨rfl, rfl⟩

/-! ## Runs that are over -/

theorem advanceBy_add (ids : List Text) (edges : List (Text × Text)) (steps more : Nat)
    (run : Run) :
    advanceBy ids edges (steps + more) run =
      advanceBy ids edges more (advanceBy ids edges steps run) := by
  induction steps generalizing run with
  | zero => rw [Nat.zero_add, advanceBy_zero]
  | succ steps ih => rw [Nat.succ_add, advanceBy, ih, advanceBy]

/-- However many steps emptied the queue, it is the run that the orderer
answers from. -/
theorem eq_final {steps : Nat}
    (h : (advanceBy ids edges steps (start ids edges)).queue = []) :
    advanceBy ids edges steps (start ids edges) = final ids edges := by
  have hlong := advanceBy_add ids edges steps ids.length (start ids edges)
  have hshort := advanceBy_add ids edges ids.length steps (start ids edges)
  have hfinal : advanceBy ids edges steps (final ids edges) = final ids edges :=
    advanceBy_of_queue_nil steps (queue_final ids edges)
  rw [advanceBy_of_queue_nil _ h] at hlong
  unfold final at hfinal ⊢
  rw [← hlong, Nat.add_comm, hshort, hfinal]

/-! ## Runs that match -/

/-- What a second run keeps in common with a first one while each of its
steps matches one step of the first, or none. -/
structure Simulates (ids : List Text) (edges : List (Text × Text)) (ids' : List Text)
    (edges' : List (Text × Text)) (Match : Run → Run → Prop) : Prop where
  start : Match (start ids edges) (start ids' edges')
  step : ∀ run run', Sound ids edges run → Sound ids' edges' run' → Match run run' →
    ∀ id queue, run'.queue = id :: queue →
      Match run (advance ids' edges' run') ∨
        Match (advance ids edges run) (advance ids' edges' run')
  ended : ∀ run run', Match run run' → run'.queue = [] → run.queue = []

theorem Simulates.exists_steps {Match : Run → Run → Prop}
    (h : Simulates ids edges ids' edges' Match) (steps : Nat) {run run' : Run}
    (hrun : Sound ids edges run) (hrun' : Sound ids' edges' run') (hmatch : Match run run') :
    ∃ n, Match (advanceBy ids edges n run) (advanceBy ids' edges' steps run') := by
  induction steps generalizing run run' with
  | zero => exact ⟨0, hmatch⟩
  | succ steps ih =>
    rcases hq : run'.queue with _ | ⟨id, queue⟩
    · rw [advanceBy_of_queue_nil _ hq]
      exact ⟨0, hmatch⟩
    · rcases h.step run run' hrun hrun' hmatch id queue hq with hstay | hstep
      · exact ih hrun (sound_advance hrun') hstay
      · obtain ⟨n, hn⟩ := ih (sound_advance hrun) (sound_advance hrun') hstep
        exact ⟨n + 1, hn⟩

/-- Runs that match at each step match at their ends. -/
theorem Simulates.final {Match : Run → Run → Prop} (h : Simulates ids edges ids' edges' Match)
    (distinct : ids.Nodup) (distinct' : ids'.Nodup) :
    Match (final ids edges) (final ids' edges') := by
  obtain ⟨n, hn⟩ := h.exists_steps ids'.length (sound_start edges distinct)
    (sound_start edges' distinct') h.start
  have hended := h.ended _ _ hn (queue_final ids' edges')
  rw [eq_final hended] at hn
  exact hn

end PipelineBoard.Order
