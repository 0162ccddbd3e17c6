-- What the orderer orders: every id that no cycle and no edge from an unknown
-- source blocks, each after all of its sources.
import Mathlib.Data.Set.Finite.List
import Mathlib.Logic.Relation
import Mathlib.Order.WellFounded
import PipelineBoard.Proofs.Order.Repeats

namespace PipelineBoard.Order

open Relation

variable {ids : List Text} {edges : List (Text × Text)} {run : Run}

/-! ## Paths -/

/-- An edge leads from one id to another. -/
def Leads (edges : List (Text × Text)) (u v : Text) : Prop := (u, v) ∈ edges

/-- A path of zero or more edges. -/
abbrev Reaches (edges : List (Text × Text)) : Text → Text → Prop :=
  ReflTransGen (Leads edges)

/-- A path of one or more edges from an id back to itself. -/
def OnCycle (edges : List (Text × Text)) (v : Text) : Prop := TransGen (Leads edges) v v

/-- Some edge comes from an id that is not listed. -/
def FedFromOutside (ids : List Text) (edges : List (Text × Text)) (v : Text) : Prop :=
  ∃ s, s ∉ ids ∧ Leads edges s v

/-- A listed id on a cycle, or the target of an unknown source, lies before
the id or is the id itself. -/
def Blocked (ids : List Text) (edges : List (Text × Text)) (v : Text) : Prop :=
  ∃ u, (u ∈ ids ∧ OnCycle edges u ∨ FedFromOutside ids edges u) ∧ Reaches edges u v

/-! ## What is done is not blocked -/

/-- A path into an ordered id starts at an ordered id that stands no later. -/
theorem idxOf_le_of_reaches (h : Sound ids edges run) {u v : Text} (huv : Reaches edges u v)
    (hv : v ∈ run.done) : u ∈ run.done ∧ run.done.idxOf u ≤ run.done.idxOf v := by
  induction huv using ReflTransGen.head_induction_on with
  | refl => exact ⟨hv, Nat.le_refl _⟩
  | head huw _ ih =>
    obtain ⟨hw, hle⟩ := ih
    obtain ⟨hu, hlt⟩ := h.in_order _ _ huw hw
    exact ⟨hu, by omega⟩

theorem not_blocked_of_done (h : Sound ids edges run) {v : Text} (hv : v ∈ run.done) :
    ¬ Blocked ids edges v := by
  rintro ⟨u, hu, huv⟩
  have hdone := (idxOf_le_of_reaches h huv hv).1
  rcases hu with ⟨_, hcycle⟩ | ⟨s, hs, hsu⟩
  · obtain ⟨w, huw, hwu⟩ := TransGen.head'_iff.mp hcycle
    obtain ⟨hw, hle⟩ := idxOf_le_of_reaches h hwu hdone
    have := (h.in_order u w huw hw).2
    omega
  · have hdone := (h.in_order s u hsu hdone).1
    exact hs (h.listed s (List.mem_append_left _ hdone))

/-! ## What is left is blocked -/

/-- An id that is left when the queue is empty still waits for some edge. -/
theorem exists_open_edge (h : Sound ids edges run) (hq : run.queue = []) {v : Text}
    (hv : v ∈ ids) (hleft : v ∉ run.done) : ∃ u, u ∉ run.done ∧ Leads edges u v := by
  have hwaits : run.waiting v ≠ 0 := by
    intro h0
    have := (h.ready v hv).mpr h0
    rw [hq, List.append_nil] at this
    exact hleft this
  rw [h.counted v, Int.natCast_ne_zero, Ne, openEdges_eq_zero] at hwaits
  push Not at hwaits
  obtain ⟨u, hu, hnot⟩ := hwaits
  exact ⟨u, hnot, hu⟩

/-- In a finite set where every id has a source inside, some id of the set
lies on a cycle. -/
theorem exists_cycle (left : Set Text) (hfinite : left.Finite) {v : Text} (hv : v ∈ left)
    (hsource : ∀ w ∈ left, ∃ u ∈ left, Leads edges u w) : ∃ u ∈ left, OnCycle edges u := by
  by_contra hnone
  push Not at hnone
  have : Finite left := hfinite
  have : IsTrans left fun a b => TransGen (Leads edges) a.1 b.1 := ⟨fun _ _ _ => TransGen.trans⟩
  have : Std.Irrefl fun a b : left => TransGen (Leads edges) a.1 b.1 :=
    ⟨fun a ha => hnone a.1 a.2 ha⟩
  have hwf : WellFounded fun a b : left => TransGen (Leads edges) a.1 b.1 :=
    Finite.wellFounded_of_trans_of_irrefl _
  obtain ⟨first, _, hfirst⟩ := hwf.has_min Set.univ ⟨⟨v, hv⟩, trivial⟩
  obtain ⟨u, hu, hlead⟩ := hsource first.1 first.2
  exact hfirst ⟨u, hu⟩ trivial (TransGen.single hlead)

theorem blocked_of_not_done (h : Sound ids edges run) (hq : run.queue = []) {v : Text}
    (hv : v ∈ ids) (hleft : v ∉ run.done) : Blocked ids edges v := by
  by_contra hfree
  -- The ids that are left and lead to `v` feed each other, as none of them is
  -- fed from outside.
  have hsource : ∀ w ∈ {w | w ∈ ids ∧ w ∉ run.done ∧ Reaches edges w v},
      ∃ u ∈ {w | w ∈ ids ∧ w ∉ run.done ∧ Reaches edges w v}, Leads edges u w := by
    rintro w ⟨hw, hwleft, hwv⟩
    obtain ⟨u, hu, huw⟩ := exists_open_edge h hq hw hwleft
    refine ⟨u, ⟨?_, hu, hwv.head huw⟩, huw⟩
    by_contra hout
    exact hfree ⟨w, Or.inr ⟨u, hout, huw⟩, hwv⟩
  have hfinite : {w | w ∈ ids ∧ w ∉ run.done ∧ Reaches edges w v}.Finite :=
    (List.finite_toSet ids).subset fun w hw => hw.1
  obtain ⟨u, ⟨hu, _, huv⟩, hcycle⟩ :=
    exists_cycle _ hfinite ⟨hv, hleft, ReflTransGen.refl⟩ hsource
  exact hfree ⟨u, Or.inl ⟨hu, hcycle⟩, huv⟩

/-! ## Cycles among the listed ids -/

/-- An edge between two listed ids. -/
def LeadsWithin (ids : List Text) (edges : List (Text × Text)) (u v : Text) : Prop :=
  u ∈ ids ∧ v ∈ ids ∧ Leads edges u v

theorem listed_of_within {u v : Text} (h : TransGen (LeadsWithin ids edges) u v) : u ∈ ids := by
  obtain ⟨_, hux, _⟩ := TransGen.head'_iff.mp h
  exact hux.1

/-- A path into a listed id stays among the listed ids, or some edge on it
enters them from outside. -/
theorem within_or_entered {u v : Text} (h : TransGen (Leads edges) u v) (hv : v ∈ ids) :
    TransGen (LeadsWithin ids edges) u v ∨ ∃ w ∈ ids, FedFromOutside ids edges w := by
  induction h using TransGen.head_induction_on with
  | @single u huv =>
    by_cases hu : u ∈ ids
    · exact Or.inl (TransGen.single ⟨hu, hv, huv⟩)
    · exact Or.inr ⟨v, hv, u, hu, huv⟩
  | @head u w huw _ ih =>
    rcases ih with hwv | hentered
    · have hw := listed_of_within hwv
      by_cases hu : u ∈ ids
      · exact Or.inl (hwv.head ⟨hu, hw, huw⟩)
      · exact Or.inr ⟨w, hw, u, hu, huw⟩
    · exact Or.inr hentered

/-- Some listed id is blocked just if there is a cycle of listed ids or an
edge that enters them from outside. -/
theorem exists_blocked_iff :
    (∃ v ∈ ids, Blocked ids edges v) ↔
      (∃ v, TransGen (LeadsWithin ids edges) v v) ∨ ∃ v ∈ ids, FedFromOutside ids edges v := by
  constructor
  · rintro ⟨v, hv, u, hu, huv⟩
    rcases hu with ⟨hu, hcycle⟩ | ⟨s, hs, hsu⟩
    · rcases within_or_entered hcycle hu with hwithin | hentered
      · exact Or.inl ⟨u, hwithin⟩
      · exact Or.inr hentered
    · rcases within_or_entered (TransGen.head' hsu huv) hv with hwithin | hentered
      · exact absurd (listed_of_within hwithin) hs
      · exact Or.inr hentered
  · rintro (⟨v, hcycle⟩ | ⟨v, hv, hfed⟩)
    · have hv := listed_of_within hcycle
      have hcycle : OnCycle edges v := TransGen.mono (fun _ _ h => h.2.2) _ _ hcycle
      exact ⟨v, hv, v, Or.inl ⟨hv, hcycle⟩, ReflTransGen.refl⟩
    · exact ⟨v, hv, v, Or.inr hfed, ReflTransGen.refl⟩

/-! ## The laws of the order -/

theorem topological_nodup (edges : List (Text × Text)) (distinct : ids.Nodup) :
    (topological ids edges).Nodup := by
  have h := (sound_final edges distinct).nodup
  rw [queue_final ids edges, List.append_nil] at h
  exact h

theorem mem_of_mem_topological (distinct : ids.Nodup) {v : Text}
    (hv : v ∈ topological ids edges) : v ∈ ids :=
  (sound_final _ distinct).listed v (List.mem_append_left _ hv)

theorem mem_topological_iff (distinct : ids.Nodup) {v : Text} (hv : v ∈ ids) :
    v ∈ topological ids edges ↔ ¬ Blocked ids edges v := by
  have h := sound_final edges distinct
  constructor
  · exact not_blocked_of_done h
  · intro hfree
    by_contra hleft
    exact hfree (blocked_of_not_done h (queue_final ids edges) hv hleft)

theorem source_before_target (distinct : ids.Nodup) {u v : Text} (huv : (u, v) ∈ edges)
    (hv : v ∈ topological ids edges) :
    u ∈ topological ids edges ∧
      (topological ids edges).idxOf u < (topological ids edges).idxOf v :=
  (sound_final _ distinct).in_order u v huv hv

/-- The order is as long as the list just if it leaves no id out. -/
theorem length_topological_iff (distinct : ids.Nodup) :
    (topological ids edges).length = ids.length ↔ ∀ v ∈ ids, v ∈ topological ids edges := by
  have hsub : topological ids edges ⊆ ids := fun _ hv => mem_of_mem_topological distinct hv
  have hle := List.subperm_of_subset (topological_nodup edges distinct) hsub
  constructor
  · intro hlength v hv
    exact (hle.perm_of_length_le (Nat.le_of_eq hlength.symm)).mem_iff.mpr hv
  · intro hall
    exact Nat.le_antisymm hle.length_le (List.subperm_of_subset distinct hall).length_le

/-- The order of distinct ids holds each id once. It holds exactly the ids
that neither a cycle nor an edge from an unknown source blocks, and every
source stands before its targets. -/
theorem the_order_holds_what_nothing_blocks (ids : List Text) (edges : List (Text × Text))
    (distinct : ids.Nodup) :
    (topological ids edges).Nodup ∧
      (∀ v ∈ topological ids edges, v ∈ ids) ∧
      (∀ v ∈ ids, v ∈ topological ids edges ↔ ¬ Blocked ids edges v) ∧
      ∀ u v, (u, v) ∈ edges → v ∈ topological ids edges →
        u ∈ topological ids edges ∧
          (topological ids edges).idxOf u < (topological ids edges).idxOf v :=
  ⟨topological_nodup edges distinct, fun _ hv => mem_of_mem_topological distinct hv,
    fun _ hv => mem_topological_iff distinct hv,
    fun _ _ huv hv => source_before_target distinct huv hv⟩

/-- A self-loop and an edge from an unknown source block their targets and
what lies behind; a parallel edge blocks nothing. -/
theorem the_order_of_four_ids :
    let ids : List Text := ["a", "b", "c", "d"]
    let edges : List (Text × Text) := [("a", "b"), ("a", "b"), ("c", "c"), ("x", "d")]
    ids.Nodup ∧ ¬ Blocked ids edges "b" ∧ Blocked ids edges "c" ∧ Blocked ids edges "d" := by
  intro ids edges
  have hdistinct : ids.Nodup := by decide
  obtain ⟨_, _, hmem, _⟩ := the_order_holds_what_nothing_blocks ids edges hdistinct
  have horder : topological ids edges = (["a", "b"] : List Text) := by decide +kernel
  simp only [horder] at hmem
  refine ⟨hdistinct, (hmem "b" (by decide)).mp (by decide), ?_, ?_⟩
  · exact not_not.mp fun hfree => absurd ((hmem "c" (by decide)).mpr hfree) (by decide)
  · exact not_not.mp fun hfree => absurd ((hmem "d" (by decide)).mpr hfree) (by decide)

end PipelineBoard.Order
