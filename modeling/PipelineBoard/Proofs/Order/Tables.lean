-- The run over tables is the run of the orderer: every look-up finds what it asks
-- for, and the loop ends after as many pops as there are ids, or before.
import Mathlib.Data.List.Induction
import PipelineBoard.Graph.Tables
import PipelineBoard.Proofs.Order.Repeats

namespace PipelineBoard.Order

variable {ids : List Text} {edges : List (Text × Text)} {run : Run} {tables : Tables}

/-! ## What the tables hold -/

/-- Ids that the table holds are all found. -/
theorem lookUpAll_eq {α : Type} {table : Table α} {value : Text → α} {some : List Text}
    (h : ∀ id ∈ some, table id = Option.some (value id)) :
    table.lookUpAll some = Option.some (some.map fun id => (id, value id)) := by
  unfold Table.lookUpAll
  induction some with
  | nil => rfl
  | cons id rest ih =>
    have hrest := ih fun other hother => h other (List.mem_cons_of_mem _ hother)
    simp [List.mapM_cons, h id List.mem_cons_self, hrest]

theorem places_append (ids : List Text) (id : Text) :
    places (ids ++ [id]) = (places ids).put id ids.length := by
  simp [places, List.zipIdx_append]

theorem placeIn_append_self (ids : List Text) (id : Text) :
    placeIn (ids ++ [id]) id = ids.length + 1 := by
  simp [placeIn]

theorem placeIn_append_of_ne {id other : Text} (h : other ≠ id) (ids : List Text) :
    placeIn (ids ++ [id]) other = placeIn ids other := by
  unfold placeIn
  rw [List.reverse_append, List.reverse_singleton, List.singleton_append,
    List.idxOf_cons_ne _ (Ne.symm h), List.length_append, List.length_singleton]
  omega

/-- The table of places holds the last place of each listed id, from zero on. -/
theorem places_eq (ids : List Text) (id : Text) :
    places ids id = if id ∈ ids then some (placeIn ids id - 1) else none := by
  induction ids using List.reverseRecOn with
  | nil => rfl
  | append_singleton ids last ih =>
    rw [places_append]
    by_cases h : id = last
    · subst h
      simp [placeIn_append_self]
    · rw [Table.put_of_ne h, ih, placeIn_append_of_ne h]
      simp [h]

theorem zeros_append (ids : List Text) (id : Text) : zeros (ids ++ [id]) = (zeros ids).put id 0 := by
  simp [zeros]

theorem zeros_eq (ids : List Text) (id : Text) :
    zeros ids id = if id ∈ ids then some 0 else none := by
  induction ids using List.reverseRecOn with
  | nil => rfl
  | append_singleton ids last ih =>
    rw [zeros_append]
    by_cases h : id = last
    · subst h
      simp
    · rw [Table.put_of_ne h, ih]
      simp [h]

/-- The targets of each source are on record in the order of its edges. -/
theorem targets_record (edges : List (Text × Text)) (tables : Table (List Text) × Table Int)
    (id : Text) :
    ((edges.foldl record tables).1 id).getD [] = (tables.1 id).getD [] ++ targets edges id := by
  induction edges generalizing tables with
  | nil => simp [targets]
  | cons edge edges ih =>
    rw [List.foldl_cons, ih]
    by_cases h : edge.1 = id
    · subst h
      simp [record, targets]
    · simp [record, targets, h, Table.put_of_ne (Ne.symm h)]

/-- Some edge leads to the id. -/
def isTarget (edges : List (Text × Text)) (id : Text) : Bool :=
  edges.any fun edge => edge.2 = id

/-- Each edge counts for its target. -/
theorem getD_waiting_record (edges : List (Text × Text))
    (tables : Table (List Text) × Table Int) (id : Text) :
    ((edges.foldl record tables).2 id).getD 0 =
      (tables.2 id).getD 0 + edges.countP fun edge => edge.2 = id := by
  induction edges generalizing tables with
  | nil => simp
  | cons edge edges ih =>
    rw [List.foldl_cons, ih, List.countP_cons]
    by_cases h : edge.2 = id
    · subst h
      simp only [record, Table.put_self, Option.getD_some, decide_true, if_true]
      omega
    · simp [record, h, Table.put_of_ne (Ne.symm h)]

theorem isSome_waiting_record (edges : List (Text × Text))
    (tables : Table (List Text) × Table Int) (id : Text) :
    ((edges.foldl record tables).2 id).isSome = ((tables.2 id).isSome || isTarget edges id) := by
  induction edges generalizing tables with
  | nil => simp [isTarget]
  | cons edge edges ih =>
    rw [List.foldl_cons, ih, isTarget, isTarget, List.any_cons]
    by_cases h : edge.2 = id
    · subst h
      simp [record]
    · simp [record, h, Table.put_of_ne (Ne.symm h)]

/-! ## The run as tables show it -/

/-- The id is listed, or some edge leads to it: it has a count. -/
def hasCount (ids : List Text) (edges : List (Text × Text)) (id : Text) : Bool :=
  ids.contains id || isTarget edges id

/-- Counts as a table. -/
def counts (ids : List Text) (edges : List (Text × Text)) (waiting : Text → Int) :
    Table Int :=
  fun id => if hasCount ids edges id then some (waiting id) else none

/-- A run as a run over tables. -/
def Run.overTables (ids : List Text) (edges : List (Text × Text)) (run : Run) : TableRun :=
  ⟨run.queue, run.done, counts ids edges run.waiting⟩

/-- The tables hold the places of the ids and the targets of the edges. -/
structure Tables.Hold (tables : Tables) (ids : List Text) (edges : List (Text × Text)) :
    Prop where
  place : ∀ id, tables.place id = if id ∈ ids then some (placeIn ids id - 1) else none
  targets : ∀ id, (tables.targets id).getD [] = Order.targets edges id

theorem waiting_record_zeros (ids : List Text) (edges : List (Text × Text)) :
    (edges.foldl record (Table.empty, zeros ids)).2 = counts ids edges (start ids edges).waiting := by
  funext id
  have hvalue : ((edges.foldl record (Table.empty, zeros ids)).2 id).getD 0 =
      (zeros ids id).getD 0 + (start ids edges).waiting id := getD_waiting_record edges _ id
  have hsome : ((edges.foldl record (Table.empty, zeros ids)).2 id).isSome =
      ((zeros ids id).isSome || isTarget edges id) := isSome_waiting_record edges _ id
  have hzero : (zeros ids id).getD 0 = 0 := by
    rw [zeros_eq]
    split <;> rfl
  have hlisted : (zeros ids id).isSome = ids.contains id := by
    rw [zeros_eq]
    by_cases h : id ∈ ids <;> simp [h]
  rw [hzero, Int.zero_add] at hvalue
  rw [hlisted] at hsome
  unfold counts hasCount
  rw [← hsome, ← hvalue]
  rcases (edges.foldl record (Table.empty, zeros ids)).2 id with _ | count <;> rfl

/-- The tables are filled without a failing look-up, and the run over them starts as
the run of the orderer. -/
theorem tabulate_eq (ids : List Text) (edges : List (Text × Text)) :
    ∃ tables : Tables, tabulate ids edges =
      some (tables, (start ids edges).overTables ids edges) ∧ tables.Hold ids edges := by
  have hfound : ∀ id ∈ ids, counts ids edges (start ids edges).waiting id =
      some ((start ids edges).waiting id) := by
    intro id hid
    simp [counts, hasCount, hid]
  have hready : ((ids.map fun id => (id, (start ids edges).waiting id)).filter fun entry =>
      entry.2 = 0).map (·.1) = (start ids edges).queue := by
    rw [List.filter_map, List.map_map]
    exact List.map_id _
  refine ⟨⟨places ids, (edges.foldl record (Table.empty, zeros ids)).1⟩, ?_, places_eq ids, ?_⟩
  · unfold tabulate
    simp only [waiting_record_zeros, lookUpAll_eq hfound, Option.bind_eq_bind, Option.bind_some,
      hready]
    rfl
  · intro id
    exact targets_record edges (Table.empty, zeros ids) id

/-! ## One step -/

theorem put_counts {target : Text} (h : hasCount ids edges target = true)
    (waiting : Text → Int) (count : Int) :
    (counts ids edges waiting).put target count =
      counts ids edges fun id => if id = target then count else waiting id := by
  funext id
  by_cases hid : id = target
  · subst hid
    simp [counts, h]
  · simp [counts, hid, Table.put_of_ne hid]

/-- An edge into an id that has a count is met as the orderer meets it. -/
theorem meet_counts (h : tables.Hold ids edges) {target : Text}
    (hcount : hasCount ids edges target = true) (met : (Text → Int) × List Text) :
    tables.meet (counts ids edges met.1, met.2) target =
      some (counts ids edges (meet ids met target).1, (meet ids met target).2) := by
  have hplace : (tables.place target).isSome = ids.contains target := by
    rw [h.place]
    by_cases hlisted : target ∈ ids <;> simp [hlisted]
  have hfound : counts ids edges met.1 target = some (met.1 target) := if_pos hcount
  simp only [Tables.meet, hfound, hplace, put_counts hcount]
  rfl

theorem foldlM_meet_counts (h : tables.Hold ids edges) {ts : List Text}
    (hcounts : ∀ t ∈ ts, hasCount ids edges t = true) (met : (Text → Int) × List Text) :
    ts.foldlM tables.meet (counts ids edges met.1, met.2) =
      some (counts ids edges (ts.foldl (meet ids) met).1, (ts.foldl (meet ids) met).2) := by
  induction ts generalizing met with
  | nil => rfl
  | cons t ts ih =>
    rw [List.foldlM_cons, meet_counts h (hcounts t List.mem_cons_self)]
    exact ih (fun other hother => hcounts other (List.mem_cons_of_mem _ hother)) (meet ids met t)

/-- Ready ids have places, and are put into their order. -/
theorem sorted_lookUpAll (h : tables.Hold ids edges) {ready : List Text}
    (hlisted : ∀ v ∈ ready, v ∈ ids) :
    ∃ placed, tables.place.lookUpAll ready = some placed ∧
      (placed.mergeSort fun a b => a.2 ≤ b.2).map (·.1) =
        ready.mergeSort fun a b => placeIn ids a ≤ placeIn ids b := by
  have hfound : ∀ v ∈ ready, tables.place v = some (placeIn ids v - 1) := by
    intro v hv
    rw [h.place, if_pos (hlisted v hv)]
  have hpos : ∀ v ∈ ready, 0 < placeIn ids v := by
    intro v hv
    have hlt := List.idxOf_lt_length_iff.mpr (List.mem_reverse.mpr (hlisted v hv))
    unfold placeIn
    rw [List.length_reverse] at hlt
    omega
  refine ⟨_, lookUpAll_eq hfound, ?_⟩
  rw [← List.map_mergeSort (r := fun a b => placeIn ids a ≤ placeIn ids b), List.map_map]
  · exact List.map_id _
  · intro a ha b hb
    have hapos := hpos a ha
    have hbpos := hpos b hb
    simp only [decide_eq_decide]
    omega

/-- Where some id is ready, a pop over tables finds all that it looks up, and does
what a step of the orderer does. -/
theorem pop_overTables (h : tables.Hold ids edges) {run : Run} (hq : run.queue ≠ []) :
    tables.pop (run.overTables ids edges) = some ((advance ids edges run).overTables ids edges) := by
  obtain ⟨id, queue, hq⟩ := List.exists_cons_of_ne_nil hq
  have hcounts : ∀ t ∈ targets edges id, hasCount ids edges t = true := by
    intro t ht
    have htarget : isTarget edges t = true :=
      List.any_eq_true.mpr ⟨(id, t), mem_targets.mp ht, decide_eq_true rfl⟩
    rw [hasCount, htarget, Bool.or_true]
  have hmet := foldlM_meet_counts h hcounts (run.waiting, [])
  have hlisted : ∀ v ∈ ((targets edges id).foldl (meet ids) (run.waiting, [])).2, v ∈ ids := by
    intro v hv
    exact (mem_freed.mp ((List.mergeSort_perm _ _).mem_iff.mpr hv)).1
  obtain ⟨placed, hplaced, hsorted⟩ := sorted_lookUpAll h hlisted
  unfold Tables.pop Run.overTables
  simp only [hq, h.targets, hmet, hplaced, hsorted, Option.bind_eq_bind, Option.bind_some]
  rw [advance_of_queue_cons hq, foldl_meet_fst]
  rfl

/-! ## The loop -/

/-- A run is drained in one way only. -/
theorem drains_unique {run last last' : TableRun} {pops pops' : Nat}
    (h : tables.Drains run pops last) (h' : tables.Drains run pops' last') :
    pops' = pops ∧ last' = last := by
  induction h generalizing pops' with
  | ended hq =>
    cases h' with
    | ended => exact ⟨rfl, rfl⟩
    | turned hpop => simp [Tables.pop, hq] at hpop
  | turned hpop _ ih =>
    cases h' with
    | ended hq => simp [Tables.pop, hq] at hpop
    | turned hpop' hrest =>
      rw [hpop, Option.some.injEq] at hpop'
      subst hpop'
      obtain ⟨rfl, rfl⟩ := ih hrest
      exact ⟨rfl, rfl⟩

/-- A run that comes to an end in so many steps is drained in no more pops. -/
theorem exists_drains (h : tables.Hold ids edges) (steps : Nat) (run : Run)
    (hended : (advanceBy ids edges steps run).queue = []) :
    ∃ pops ≤ steps, tables.Drains (run.overTables ids edges) pops
      ((advanceBy ids edges steps run).overTables ids edges) := by
  induction steps generalizing run with
  | zero => exact ⟨0, Nat.le_refl 0, .ended hended⟩
  | succ steps ih =>
    by_cases hq : run.queue = []
    · rw [advanceBy_of_queue_nil _ hq]
      exact ⟨0, Nat.zero_le _, .ended hq⟩
    · obtain ⟨pops, hpops, hrest⟩ := ih (advance ids edges run) hended
      exact ⟨pops + 1, Nat.succ_le_succ hpops, .turned (pop_overTables h hq) hrest⟩

/-- The loop ends on every list of ids, repeats allowed, and all edges. It finds
all that it looks up, pops no more often than there are ids, and leaves the
dependency order. No id stands there more often than it is listed, and one that
an edge leads to stands there once at most. -/
theorem the_loop_ends_on_every_list (ids : List Text) (edges : List (Text × Text)) :
    ∃ tables first, tabulate ids edges = some (tables, first) ∧
      (∃ pops last, tables.Drains first pops last) ∧
      ∀ pops last, tables.Drains first pops last →
        pops ≤ ids.length ∧ last.done = topological ids edges ∧
          (∀ v, last.done.count v ≤ ids.count v) ∧
          ∀ u v, (u, v) ∈ edges → last.done.count v ≤ 1 := by
  obtain ⟨tables, htables, hold⟩ := tabulate_eq ids edges
  obtain ⟨most, hmost, hdrains⟩ := exists_drains hold ids.length (start ids edges)
    (queue_final ids edges)
  refine ⟨tables, _, htables, ⟨most, _, hdrains⟩, fun pops last h => ?_⟩
  obtain ⟨rfl, rfl⟩ := drains_unique hdrains h
  exact ⟨hmost, rfl, count_topological_le ids edges, fun u v hlead =>
    count_topological_of_target ids hlead⟩

-- The second `a` takes the count of `b` below zero, and `b` is ordered once.
example : topological ["a", "b", "a", "b"] [("a", "b")] = ["a", "a", "b"] := by decide +kernel

end PipelineBoard.Order
