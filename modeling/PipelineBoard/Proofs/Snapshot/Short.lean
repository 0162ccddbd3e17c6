-- Graphs whose params can all be written. The script of such a graph can be
-- written, and so can every script of a graph that was read from a text.
import PipelineBoard.Proofs.Graph.Builds
import PipelineBoard.Proofs.Snapshot.RoundTrip

namespace PipelineBoard

/-! ## Whole real numbers -/

namespace Binary64

theorem unitsAt_lt {place : Nat} (h : place < infinityPlace) :
    unitsAt place < 2 ^ Numeral.mostDigits := by
  have hsize : binade = 2 ^ 52 := rfl
  have hfraction : place % binade < binade := Nat.mod_lt _ (by decide)
  have hexponent : place / binade < 2047 := Nat.div_lt_of_lt_mul (by rwa [Nat.mul_comm])
  unfold unitsAt
  dsimp only
  split
  · have hplaces : 52 ≤ Numeral.mostDigits := by decide
    rw [hsize] at hfraction
    rw [hsize]
    exact hfraction.trans_le (Nat.pow_le_pow_right Nat.two_pos hplaces)
  · have hfactor : binade + place % binade < 2 ^ 53 := by
      rw [hsize] at hfraction ⊢
      omega
    have hbits : 53 + (place / binade - 1) ≤ Numeral.mostDigits := by
      unfold Numeral.mostDigits
      omega
    calc (binade + place % binade) * 2 ^ (place / binade - 1)
        < 2 ^ 53 * 2 ^ (place / binade - 1) :=
          Nat.mul_lt_mul_of_pos_right hfactor (Nat.two_pow_pos _)
      _ = 2 ^ (53 + (place / binade - 1)) := (Nat.pow_add ..).symm
      _ ≤ 2 ^ Numeral.mostDigits := Nat.pow_le_pow_right (by decide) hbits

theorem natAbs_units_lt (d : Binary64) : d.units.natAbs < 2 ^ Numeral.mostDigits := by
  have hpos : 0 < 2 ^ Numeral.mostDigits := Nat.two_pow_pos _
  cases d with
  | nan => exact hpos
  | signed negative place =>
    unfold units
    dsimp only
    split
    · rename_i hfinite
      have hunits := unitsAt_lt hfinite
      split <;> simpa using hunits
    · exact hpos

/-- A whole number that a real number equals has few enough digits. -/
theorem isShort_of_toInt? {d : Binary64} {n : Int} (h : d.toInt? = some n) :
    Numeral.isShort n = true := by
  unfold toInt? at h
  rw [Option.ite_none_right_eq_some, Option.some.injEq] at h
  obtain ⟨_, rfl⟩ := h
  rw [Numeral.isShort_iff]
  calc (d.units / unitsPerOne).natAbs ≤ d.units.natAbs := Int.natAbs_ediv_le_natAbs ..
    _ < 2 ^ Numeral.mostDigits := d.natAbs_units_lt
    _ ≤ 10 ^ Numeral.mostDigits := Nat.pow_le_pow_left (by decide) _

end Binary64

/-! ## Values of params -/

namespace Params

variable {params : Fields} {key : Text} {default : Json}

theorem isShort_numberOr (h : Json.allFieldsShort params = true) (hdefault : default.isShort = true) :
    (numberOr params key default).isShort = true := by
  have hvalue : (valueOr params key default).isShort = true := by
    unfold valueOr
    split
    · exact hdefault
    · exact hdefault
    · rename_i value hnull hget
      exact Json.isShort_of_get? h hget
  unfold numberOr
  dsimp only
  split
  · exact hvalue
  · exact hdefault

theorem isShort_count (h : Json.allFieldsShort params = true) {default : Int}
    (hdefault : Numeral.isShort default = true) :
    Numeral.isShort (count params key default) = true := by
  have hint : ∀ {n m : Int}, Numeral.isShort n = true →
      (if 0 < n then Json.int n else .int default) = .int m → Numeral.isShort m = true := by
    intro n m hn hm
    split at hm <;> cases hm
    · exact hn
    · exact hdefault
  have hnumber : (numberOr params key (.int default)).isShort = true :=
    isShort_numberOr h (by rwa [Json.isShort])
  unfold count
  split
  · rename_i m hcount
    unfold countOr at hcount
    split at hcount
    · rename_i n hn
      rw [hn, Json.isShort] at hnumber
      exact hint hnumber (Option.some.inj hcount)
    · rename_i b _
      split at hcount <;> cases hcount
      exact hdefault
    · split at hcount
      · rename_i n hn
        exact hint (Binary64.isShort_of_toInt? hn) (Option.some.inj hcount)
      · cases hcount
        exact hdefault
    · cases hcount
  · exact hdefault

end Params

/-! ## Graphs -/

namespace Graph

/-- The params of every node can be written. -/
def HasShortParams (g : Graph) : Prop := ∀ node ∈ g.nodes, Json.allFieldsShort node.params = true

end Graph

namespace Fragment

theorem allFieldsShort_splitParams {params : Fields} (h : Json.allFieldsShort params = true) :
    Json.allFieldsShort (splitParams params) = true := by
  have hdefault : Json.allFieldsShort defaultSplit = true := by decide +kernel
  rw [Json.allFieldsShort_iff] at h hdefault ⊢
  refine Fields.forall_mem_overriddenBy (p := fun field => field.2.isShort = true) hdefault ?_
  intro field hfield
  exact h field (List.mem_of_mem_filter hfield)

theorem isShort_of_mem_shownBy {stage : Stage} {node : Node}
    (h : Json.allFieldsShort node.params = true) :
    ∀ value ∈ shownBy stage node, value.isShort = true := by
  have hrate : defaultRate.isShort = true := by decide +kernel
  intro value hvalue
  cases stage with
  | data | transform | model =>
    rw [List.mem_singleton.mp hvalue, Json.isShort]
    exact h
  | split =>
    rw [List.mem_singleton.mp hvalue, Json.isShort]
    exact allFieldsShort_splitParams h
  | optimizer =>
    rw [List.mem_singleton.mp hvalue]
    exact Params.isShort_numberOr h hrate
  | trainer =>
    simp only [shownBy, List.mem_cons, List.not_mem_nil, or_false] at hvalue
    rcases hvalue with rfl | rfl <;> rw [Json.isShort]
    · exact Params.isShort_count h (by decide)
    · exact Params.isShort_count h (by decide)
  | loss | metric | composite => cases hvalue

theorem isShort_of_mem_shown {stage : Stage} {nodes : List Node}
    (h : ∀ node ∈ nodes, Json.allFieldsShort node.params = true) :
    ∀ value ∈ shown stage nodes, value.isShort = true := by
  have hall : ∀ value ∈ nodes.flatMap (shownBy stage), value.isShort = true := by
    intro value hvalue
    obtain ⟨node, hnode, hvalue⟩ := List.mem_flatMap.mp hvalue
    exact isShort_of_mem_shownBy (h node hnode) value hvalue
  have hfirst : ∀ value ∈ nodes.head?.elim [] (shownBy stage), value.isShort = true := by
    cases nodes with
    | nil => exact fun _ hvalue => nomatch hvalue
    | cons node rest => exact isShort_of_mem_shownBy (h node List.mem_cons_self)
  cases stage with
  | data | transform => exact hall
  | split | model | loss | optimizer | trainer | metric | composite => exact hfirst

end Fragment

namespace Graph

theorem HasShortParams.allShort {g : Graph} (h : g.HasShortParams) :
    Json.allShort g.scriptValues = true := by
  rw [Json.allShort_iff]
  intro value hvalue
  obtain ⟨stage, _, hvalue⟩ := List.mem_flatMap.mp hvalue
  refine Fragment.isShort_of_mem_shown (fun node hnode => ?_) value hvalue
  exact h node (mem_nodes_of_mem_ordered (List.mem_of_mem_filter hnode))

/-- The name of a graph has no part in it. -/
theorem HasShortParams.underName {g : Graph} (h : g.HasShortParams) (name : Option Text) :
    (g.underName name).HasShortParams := by
  cases name <;> exact h

theorem HasShortParams.exists_build {g : Graph} (h : g.HasShortParams) :
    ∃ build, g.build = .ok build := by
  cases hbuild : g.build with
  | ok build => exact ⟨build, rfl⟩
  | error e =>
    have hlong := (build_eq_error_iff.mp hbuild).2
    rw [h.allShort] at hlong
    cases hlong

end Graph

/-! ## Graphs that were read -/

namespace Snapshot

theorem HoldsNode.allFieldsShort {fields : Fields} {node : Node} (h : HoldsNode fields node)
    (hfields : Json.allFieldsShort fields = true) : Json.allFieldsShort node.params = true := by
  have hstage : Json.allFieldsShort (stageFields fields) = true := by
    unfold stageFields
    split
    · rename_i data hdata
      have hobject := Json.isShort_of_get? hfields hdata
      rw [Json.isShort, Json.allFieldsShort_iff] at hobject
      rw [Json.allFieldsShort_iff] at hfields ⊢
      exact Fields.forall_mem_overriddenBy (p := fun field => field.2.isShort = true) hfields hobject
    · exact hfields
  obtain ⟨_, hparams⟩ | ⟨value, hvalue, rfl, _⟩ := h.params
  · rw [hparams]
    rfl
  · have hobject := Json.isShort_of_get? hstage hvalue
    rwa [Json.isShort] at hobject

theorem HoldNodes.hasShortParams {items : List Json} {nodes : List Node} (h : HoldNodes items nodes)
    (hitems : Json.allShort items = true) :
    ∀ node ∈ nodes, Json.allFieldsShort node.params = true := by
  induction h with
  | nil => simp
  | cons hitem _ ih =>
    obtain ⟨fields, rfl, hnode⟩ := hitem
    rw [Json.allShort, Bool.and_eq_true, Json.isShort] at hitems
    exact List.forall_mem_cons.mpr ⟨hnode.allFieldsShort hitems.1, ih hitems.2⟩

/-- The graph of a snapshot that can be written has params that can. -/
theorem hasShortParams_read {strict : Bool} {value : Json} {g : Graph}
    (h : (read strict value).result = .ok g) (hvalue : value.isShort = true) : g.HasShortParams := by
  obtain ⟨fields, nodes, edges, rfl, hlist, _, _, hnodes, _⟩ := read_ok h
  rw [Json.isShort] at hvalue
  have hitems := Json.isShort_of_get? hvalue hlist
  rw [Json.isShort] at hitems
  exact hnodes.hasShortParams hitems

end Snapshot

end PipelineBoard
