-- Where a run puts its script: right into the output directory, whatever the
-- project is called.
import PipelineBoard.Proofs.CommandLine.Runs
import PipelineBoard.Proofs.Storage.Paths

namespace PipelineBoard

open Text

/-! ## A file name as a name on a path -/

theorem Script.isName_fileName (name : Text) : Path.IsName (fileName name) := by
  have hlength : 3 ≤ (fileName name).toList.length := by
    rw [fileName, Text.toList_append, List.length_append]
    exact Nat.le_add_left 3 _
  refine ⟨?_, ?_, fun hslash => ?_⟩
  · intro h
    rw [h] at hlength
    exact absurd hlength (by decide)
  · intro h
    rw [h] at hlength
    exact absurd hlength (by decide)
  · have hunsafe : isUnsafe '/' = true := by decide
    rw [isUnsafe_of_mem_fileName name '/' hslash] at hunsafe
    cases hunsafe

theorem Script.fileName_ne_up (name : Text) : fileName name ≠ ".." := by
  intro h
  have hlength : (fileName name).toList.length = 2 := by rw [h]; rfl
  rw [fileName, Text.toList_append, List.length_append] at hlength
  have hending : (Text.toList ".py").length = 3 := rfl
  omega

namespace Storage

/-- The names of a path lead to a directory at a place. -/
def LeadsTo (s : Storage) (p : Path) (place : List Text) : Prop :=
  s.follow (if p.root.isEmpty then s.home else []) p.names = .ok (place, some .directory)

/-- One more name leads one place further, unless it leads up again. -/
theorem follow_append_name {s : Storage} {name : Text} (hup : name ≠ "..")
    {names start target : List Text} {entry : Option Entry}
    (h : s.follow start (names ++ [name]) = .ok (target, entry)) :
    ∃ place, s.follow start names = .ok (place, some .directory) ∧ target = place ++ [name] := by
  have hlast : ∀ {start}, s.look start name = .ok (target, entry) → target = start ++ [name] := by
    intro start hlook
    rcases look_cases hlook with ⟨hname, _⟩ | ⟨_, _, htarget, _⟩
    · exact absurd hname hup
    · exact htarget
  fun_induction follow s start names with
  | case1 start => exact ⟨start, rfl, hlast h⟩
  | case2 start first =>
    rw [List.cons_append, List.nil_append, follow] at h
    · split at h
      next => cases h
      next => cases h
      next => cases h
      next way hlook => exact ⟨way, hlook, hlast h⟩
    · simp
  | case3 start first rest hrest fault hlook =>
    rw [List.cons_append, follow, hlook] at h
    · cases h
    · simp
  | case4 start first rest hrest way hlook =>
    rw [List.cons_append, follow, hlook] at h
    · cases h
    · simp
  | case5 start first rest hrest way content hlook =>
    rw [List.cons_append, follow, hlook] at h
    · cases h
    · simp
  | case6 start first rest hrest way hlook ih =>
    rw [List.cons_append, follow, hlook] at h
    · exact ih h
    · simp

/-- A file that was written in a directory is one place further. -/
theorem Wrote.exists_leadsTo {s s' : Storage} {directory : Path} {name : Text}
    {content : ByteArray} (hup : name ≠ "..") (h : s.Wrote s' (directory.child name) content) :
    ∃ place, s'.LeadsTo directory place ∧
      ∀ other, ¬ s.KeptAt s' other → other = place ++ [name] := by
  obtain ⟨_, target, hfind, hothers⟩ := h
  obtain ⟨place, hplace, rfl⟩ := follow_append_name hup (find_eq_ok_iff.mp hfind).2
  refine ⟨place, hplace, fun other hchanged => Decidable.by_contra fun hother => ?_⟩
  exact hchanged (hothers other hother)

end Storage

namespace CommandLine

/-! ## The path of the output -/

theorem of_write_deliver {options : Options} {g : Graph} {path : Path} {source : Text}
    (h : (deliver options g).ending = .write path source) :
    ∃ directory, options.out = some directory ∧
      path = (Path.ofString directory).child (Script.fileName g.name) := by
  unfold deliver at h
  split at h
  next => cases h
  next =>
    split at h
    next => cases h
    next =>
      split at h
      next =>
        unfold printed at h
        split at h <;> cases h
      next =>
        split at h
        next => cases h
        next directory hout =>
          cases h
          exact ⟨directory, hout, rfl⟩

/-- The path that the work on a snapshot asks for is a child of the output
directory. -/
theorem of_write_work {options : Options} {content : ByteArray} {path : Path} {source : Text}
    (h : (work options content).ending = .write path source) :
    ∃ directory name, options.out = some directory ∧
      path = (Path.ofString directory).child (Script.fileName name) := by
  unfold work at h
  split at h
  next => cases h
  next => cases h
  next => cases h
  next =>
    simp only at h
    split at h
    next => cases h
    next g _ =>
      unfold workOn at h
      simp only at h
      split at h
      next =>
        obtain ⟨directory, hout, hpath⟩ := of_write_deliver h
        exact ⟨directory, _, hout, hpath⟩
      next => cases h

/-- A run without a graph leaves the files as they were. -/
theorem Fails.kept {storage : Storage} {options : Options} {outcome : Outcome}
    {e : Snapshot.LoadError} (h : Fails storage options outcome e) : outcome.storage = storage := by
  unfold Fails at h
  split at h
  · exact h.kept
  · exact h.kept
  · exact h.kept
  · exact h.kept
  · exact h.kept
  · rcases h with ⟨_, h⟩ | ⟨_, h⟩
    · exact h.kept
    · exact h.kept

/-- What a run on a graph writes stands right in the output directory. -/
theorem Delivers.exists_leadsTo {storage : Storage} {options : Options} {g : Graph}
    {build : Build} {outcome : Outcome} (h : Delivers storage options g build outcome)
    {place : List Text}
    (hplace : ¬ storage.KeptAt outcome.storage place) :
    ∃ directory target, options.out = some directory ∧
      outcome.storage.LeadsTo (Path.ofString directory) target ∧
      place = target ++ [Script.fileName g.name] := by
  have hkept : outcome.storage ≠ storage := by
    intro hsame
    rw [hsame] at hplace
    exact hplace (.inl rfl)
  have hwrote : ∀ {directory bytes}, options.out = some directory →
      Storage.Wrote storage outcome.storage
        ((Path.ofString directory).child (Script.fileName g.name)) bytes →
      ∃ directory target, options.out = some directory ∧
        outcome.storage.LeadsTo (Path.ofString directory) target ∧
        place = target ++ [Script.fileName g.name] := by
    intro directory bytes out wrote
    obtain ⟨target, hleads, honly⟩ := wrote.exists_leadsTo (Script.fileName_ne_up g.name)
    exact ⟨directory, target, out, hleads, honly place hplace⟩
  cases h with
  | refused _ refuses => exact absurd refuses.kept hkept
  | printed _ _ _ prints => exact absurd prints.kept hkept
  | unprinted _ _ _ crashes | unplaced _ _ _ crashes =>
    obtain ⟨_, crashes⟩ := crashes
    exact absurd crashes.kept hkept
  | saved directory _ _ out _ _ saves =>
    cases saves with
    | written _ _ _ _ wrote => exact hwrote out wrote
    | failed _ _ _ kept => exact absurd (kept place) hplace
  | broken directory _ _ out _ _ breaks =>
    obtain ⟨_, wrote⟩ := breaks.wrote
    exact hwrote out wrote

/-- A file name is a component and its ending, and a component without blanks at
its ends is kept as it is. The path that a run writes to is the output directory
with that one name more, also when it is read back from its text; and a place
where a file is new or changed after a run is right in that directory. -/
theorem a_script_goes_right_into_its_directory :
    (∀ name, ∃ stem, Script.fileName name = stem ++ ".py" ∧ Script.IsComponent stem) ∧
      (∀ name, Script.IsComponent name → (∀ c ∈ name.toList.head?, isBlank c = false) →
        (∀ c ∈ name.toList.getLast?, isBlank c = false) →
        Script.fileName name = name ++ ".py") ∧
      (∀ options content path source, (work options content).ending = .write path source →
        ∃ directory name, options.out = some directory ∧
          path = (Path.ofString directory).child (Script.fileName name) ∧
          Path.ofString path.text = path) ∧
      ∀ storage arguments options, readArguments arguments = .ok (.build options) →
        ∀ place, ¬ storage.KeptAt (run storage arguments).storage place →
          ∃ directory target name, options.out = some directory ∧
            (run storage arguments).storage.LeadsTo (Path.ofString directory) target ∧
            place = target ++ [Script.fileName name] := by
  refine ⟨fun name => ⟨_, rfl, Script.isComponent_stem name⟩, ?_, ?_, ?_⟩
  · intro name hname hfirst hlast
    rw [Script.fileName, Script.stem_eq_self hname hfirst hlast,
      nameOrDefault_eq_self hname.nonempty]
  · intro options content path source h
    obtain ⟨directory, name, hout, rfl⟩ := of_write_work h
    have hnormal := (Path.normal_ofString directory).child (Script.isName_fileName name)
    exact ⟨directory, name, hout, rfl, Path.ofString_text hnormal⟩
  · intro storage arguments options harguments place hplace
    rw [run_of_build harguments storage] at hplace ⊢
    rcases hload : (Snapshot.load storage (Path.ofString options.snapshot) options.strict).result
      with e | g
    · rw [(fails_build hload).kept] at hplace
      exact absurd (.inl rfl) hplace
    · cases hname : (named options g).name.isEncodable with
      | false =>
        rw [(crashes_build hload hname).kept] at hplace
        exact absurd (.inl rfl) hplace
      | true =>
        obtain ⟨built, hbuilt⟩ := exists_build_named hload
        obtain ⟨directory, target, hout, hleads, htarget⟩ :=
          (delivers_build hload hname hbuilt).exists_leadsTo hplace
        exact ⟨directory, target, _, hout, hleads, htarget⟩

/-- A name that tries to leave its directory, and one that is kept. -/
theorem the_file_names_of_two_projects :
    (∃ stem, Script.fileName " ../..\\.ssh" = stem ++ ".py" ∧ Script.IsComponent stem) ∧
      Script.IsComponent "Ziffern v2.1" ∧
      Script.fileName "Ziffern v2.1" = "Ziffern v2.1" ++ ".py" := by
  obtain ⟨hcomponent, hkept, _⟩ := a_script_goes_right_into_its_directory
  have hname : Script.IsComponent "Ziffern v2.1" := Script.isComponent_given rfl rfl rfl
  refine ⟨hcomponent _, hname, hkept _ hname ?_ ?_⟩
  · rintro c ⟨⟩
    rfl
  · rintro c ⟨⟩
    rfl

end CommandLine

end PipelineBoard
