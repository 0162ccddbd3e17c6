-- What a run on a snapshot comes to: it refuses the snapshot with an error line,
-- prints the script, saves it, or ends at once.
import PipelineBoard.Proofs.CommandLine.Log
import PipelineBoard.Proofs.Script.FileName
import PipelineBoard.Proofs.Snapshot.Loading
import PipelineBoard.Proofs.Storage.Asking

namespace PipelineBoard

open Text

/-- The directory of a path can be made, and a file can be written there. -/
def Storage.Opens (s : Storage) (path : Path) : Prop :=
  ∃ s', s.makeDirectories { path with names := path.names.dropLast } = (s', .ok ()) ∧
    (s'.write path "".toUTF8).2 = .ok ()

namespace CommandLine

/-! ## Ways to end -/

/-- The run tells in an error line that there is no script, with status 1, and
leaves the files as they were. -/
structure Refuses (storage : Storage) (outcome : Outcome) : Prop where
  status : outcome.status = .ok 1
  told : HasErrorLine outcome.told
  kept : outcome.storage = storage

/-- The run prints a text, with status 0, and leaves the files as they were. -/
structure Prints (storage : Storage) (text : Text) (outcome : Outcome) : Prop where
  status : outcome.status = .ok 0
  printed : outcome.stdout = text
  quiet : outcome.told = ""
  kept : outcome.storage = storage

/-- The run writes a source at a path and says so after the text that it printed
before, with status 0; or it tells in an error line that it could not, with
status 1, and no file is new or changed. -/
inductive Saves (storage : Storage) (path : Path) (source before : Text) (outcome : Outcome) :
    Prop where
  | written {bytes : ByteArray} (status : outcome.status = .ok 0)
      (printed : outcome.stdout = before ++ wrote path) (quiet : outcome.told = "")
      (encoded : source.utf8? = some bytes)
      (wrote : Storage.Wrote storage outcome.storage path bytes)
  | failed (status : outcome.status = .ok 1) (printed : outcome.stdout = before)
      (told : HasErrorLine outcome.told)
      (kept : Storage.OnlyDirectories storage outcome.storage)

/-- The run ends at once and tells nothing. -/
structure Ends (crash : Crash) (outcome : Outcome) : Prop where
  status : outcome.status = .error crash
  quiet : outcome.told = ""

/-- The run ends at once, tells nothing and leaves the files as they were. -/
structure Crashes (storage : Storage) (crash : Crash) (outcome : Outcome) : Prop
    extends Ends crash outcome where
  kept : outcome.storage = storage

/-- The run ends at once as a text that it wrote or printed has no form in UTF-8.
Before that it wrote at most the file at the path. -/
structure Breaks (storage : Storage) (path : Path) (outcome : Outcome) : Prop
    extends Ends .notEncodable outcome where
  wrote : ∃ bytes, Storage.Wrote storage outcome.storage path bytes

/-! ## Saving a script -/

/-- The directory of a file in a directory. -/
theorem dropLast_child (directory : Path) (name : Text) :
    { directory.child name with names := (directory.child name).names.dropLast } = directory := by
  simp [Path.child]

/-- What saving a source comes to: it is written if the file can be opened, and it
and the message for it are in UTF-8. -/
inductive Saved (storage : Storage) (path : Path) (source : Text) :
    Storage × Except Crash Unit → Prop where
  | written {s : Storage} {bytes : ByteArray} (opens : storage.Opens path)
      (encoded : source.utf8? = some bytes) (wrote : storage.Wrote s path bytes) :
      Saved storage path source (s, .ok ())
  | emptied {s : Storage} (opens : storage.Opens path) (lone : source.isEncodable = false)
      (wrote : storage.Wrote s path "".toUTF8) :
      Saved storage path source (s, .error .notEncodable)
  | closed {s : Storage} {e : StorageError} (closed : ¬ storage.Opens path)
      (kept : storage.OnlyDirectories s) : Saved storage path source (s, .error (.storage e))

/-- What writing a text comes to, by what the files say to the bytes for it. -/
inductive Written (storage : Storage) (path : Path) (source : Text) :
    Storage × Except Crash Unit → Prop where
  | done {s : Storage} {bytes : ByteArray} (write : storage.write path bytes = (s, .ok ()))
      (encoded : source.utf8? = some bytes) : Written storage path source (s, .ok ())
  | emptied {s : Storage} (write : storage.write path "".toUTF8 = (s, .ok ()))
      (lone : source.isEncodable = false) :
      Written storage path source (s, .error .notEncodable)
  | refused {s : Storage} {content : ByteArray} {e : StorageError}
      (write : storage.write path content = (s, .error e)) :
      Written storage path source (s, .error (.storage e))

theorem written_writeText (storage : Storage) (path : Path) (source : Text) :
    Written storage path source (writeText storage path source) := by
  unfold writeText
  split
  next bytes hbytes =>
    rcases hwrite : storage.write path bytes with ⟨s, e | _⟩
    · exact .refused hwrite
    · exact .done hwrite hbytes
  next hbytes =>
    have hlone : source.isEncodable = false := by
      rw [← Bool.not_eq_true, isEncodable_iff]
      rintro ⟨s, rfl⟩
      rw [utf8?_ofString] at hbytes
      cases hbytes
    split
    next hwrite => exact .refused hwrite
    next hwrite => exact .emptied hwrite hlone

theorem write_snd (s : Storage) (path : Path) (content other : ByteArray) :
    (s.write path content).2 = (s.write path other).2 := by
  unfold Storage.write
  split <;> rfl

theorem saved_save (storage : Storage) (path : Path) (source : Text) :
    Saved storage path source (save storage path source) := by
  have hmade := storage.onlyDirectories_makeDirectories { path with names := path.names.dropLast }
  unfold save
  rcases hdirectories :
      storage.makeDirectories { path with names := path.names.dropLast } with ⟨s, e | _⟩
  · rw [hdirectories] at hmade
    refine .closed ?_ hmade
    rintro ⟨s', hs', _⟩
    cases hdirectories.symm.trans hs'
  · rw [hdirectories] at hmade
    -- Whether a file can be opened is not up to its content.
    have hopens : ∀ {content : ByteArray} {s' result}, s.write path content = (s', result) →
        (storage.Opens path ↔ result = .ok ()) := by
      intro content s' result hwrite
      rw [show result = (s.write path "".toUTF8).2 by rw [write_snd s path _ content, hwrite]]
      constructor
      · rintro ⟨_, hs, hopen⟩
        cases hdirectories.symm.trans hs
        exact hopen
      · exact fun hopen => ⟨s, hdirectories, hopen⟩
    have hwritten := written_writeText s path source
    simp only
    generalize writeText s path source = outcome at hwritten ⊢
    cases hwritten with
    | done write encoded =>
      exact .written ((hopens write).mpr rfl) encoded
        ((Storage.wrote_of_write_ok write).of_onlyDirectories hmade)
    | emptied write lone =>
      exact .emptied ((hopens write).mpr rfl) lone
        ((Storage.wrote_of_write_ok write).of_onlyDirectories hmade)
    | refused write =>
      refine .closed ((hopens write).not.mpr nofun) ?_
      rw [Storage.write_eq_of_error write]
      exact hmade

theorem save_of_unaskable (storage : Storage) {directory : Path} {fault : PathFault}
    (h : Storage.unaskable? directory.text = some fault) (name source : Text) :
    save storage (directory.child name) source =
      (storage, .error (.storage ⟨fault, directory.text⟩)) := by
  rw [save, dropLast_child, storage.makeDirectories_of_unaskable h]

/-- A path that the system can be asked about is refused by the system. -/
theorem save_wasAsked (storage : Storage) {directory : Path} (h : directory.IsAskable)
    {name : Text} (hname : Text.IsAskable name) (source : Text) {s : Storage} {e : StorageError}
    (hsave : save storage (directory.child name) source = (s, .error (.storage e))) :
    e.fault.isUnaskable = false := by
  have hmade := storage.makeDirectories_wasAsked h
  rw [save, dropLast_child] at hsave
  split at hsave
  next hdirectories =>
    cases hsave
    rw [hdirectories] at hmade
    exact hmade _ rfl
  next s' _ _ =>
    have hwritten := written_writeText s' (directory.child name) source
    rw [hsave] at hwritten
    cases hwritten with
    | refused write =>
      have haskable := (Path.isAskable_child directory name).mpr ⟨h, hname⟩
      exact s'.write_wasAsked haskable _ e (congrArg Prod.snd write)

/-! ## Ending a run -/

theorem isEncodable_wrote (directory name : Text) :
    (wrote ((Path.ofString directory).child name)).isEncodable =
      (directory.isEncodable && name.isEncodable) := by
  have hfront : Text.isEncodable "[compile_from_json] wrote   : " = true := isEncodable_ofString _
  have hfeed : Text.isEncodable "\n" = true := isEncodable_ofString _
  rw [wrote, isEncodable_append, isEncodable_append, hfront, hfeed, Path.isEncodable_text_child,
    Bool.true_and, Bool.and_true]

theorem refuses_finish (storage : Storage) {w : Work} (hending : w.ending = .status 1)
    (htold : HasErrorLine w.told) : Refuses storage (finish storage w) := by
  unfold finish
  rw [hending]
  exact ⟨rfl, htold, rfl⟩

theorem crashes_finish (storage : Storage) {w : Work} {crash : Crash}
    (hending : w.ending = .crash crash) (hquiet : w.told = "") :
    Crashes storage crash (finish storage w) := by
  unfold finish
  rw [hending]
  exact ⟨⟨rfl, hquiet⟩, rfl⟩

section

variable (storage : Storage) {w : Work} {directory name source : Text}
  (hending : w.ending = .write ((Path.ofString directory).child name) source) (hquiet : w.told = "")
include hending hquiet

/-- A script cannot go to a directory that the system cannot be asked about. -/
theorem exists_crashes_finish (h : ¬ Text.IsAskable directory) :
    ∃ crash, Crashes storage crash (finish storage w) := by
  rw [← Path.isAskable_ofString, Path.IsAskable, ← Storage.unaskable?_eq_none_iff] at h
  obtain ⟨fault, hfault⟩ := Option.ne_none_iff_exists'.mp h
  refine ⟨.storage ⟨fault, (Path.ofString directory).text⟩, ?_⟩
  unfold finish
  rw [hending]
  simp only
  rw [save_of_unaskable storage hfault]
  simp only
  rw [if_pos (Storage.isUnaskable_of_unaskable? hfault)]
  exact ⟨⟨rfl, hquiet⟩, rfl⟩

/-- A script is saved, unless its file can be opened and it or the message for it
has no form in UTF-8. -/
theorem saves_finish {before : Text} (hbefore : w.stdout = before)
    (h : Text.IsAskable directory) (hname : name.isEncodable = true)
    (hnull : ¬ HasNull name) (hsource : storage.Opens ((Path.ofString directory).child name) →
      source.isEncodable = true ∧ directory.isEncodable = true) :
    Saves storage ((Path.ofString directory).child name) source before (finish storage w) := by
  have hasked := fun s e => save_wasAsked storage (Path.isAskable_ofString directory |>.mpr h)
    (isAskable_of_isEncodable hname hnull) source (s := s) (e := e)
  have hsaved := saved_save storage ((Path.ofString directory).child name) source
  subst hbefore
  unfold finish
  rw [hending]
  simp only
  split
  next hsave =>
    rw [hsave] at hsaved
    cases hsaved with
    | written opens encoded wrote =>
      rw [isEncodable_wrote, (hsource opens).2, hname]
      exact .written rfl rfl hquiet encoded wrote
  next s e hsave =>
    rw [hasked _ _ hsave]
    rw [hsave] at hsaved
    cases hsaved with
    | closed _ kept =>
      refine .failed rfl rfl ?_ kept
      rw [hquiet, Text.empty_append]
      exact hasErrorLine_errorLine _
  next crash hcrash hsave =>
    rw [hsave] at hsaved
    cases hsaved with
    | emptied opens lone => cases lone.symm.trans (hsource opens).1
    | closed => exact absurd rfl (hcrash _)

theorem breaks_finish (opens : storage.Opens ((Path.ofString directory).child name))
    (lone : source.isEncodable = false ∨ directory.isEncodable = false) :
    Breaks storage ((Path.ofString directory).child name) (finish storage w) := by
  have hsaved := saved_save storage ((Path.ofString directory).child name) source
  unfold finish
  rw [hending]
  simp only
  split
  next hsave =>
    rw [hsave] at hsaved
    cases hsaved with
    | written _ encoded wrote =>
      have hdirectory : directory.isEncodable = false := by
        refine lone.resolve_left fun hsource => ?_
        rw [utf8?_of_not_isEncodable hsource] at encoded
        cases encoded
      rw [isEncodable_wrote, hdirectory]
      exact ⟨⟨rfl, hquiet⟩, _, wrote⟩
  next hsave =>
    rw [hsave] at hsaved
    cases hsaved with
    | closed closed => exact absurd opens closed
  next crash hcrash hsave =>
    rw [hsave] at hsaved
    cases hsaved with
    | emptied _ _ wrote => exact ⟨⟨rfl, hquiet⟩, _, wrote⟩
    | closed => exact absurd rfl (hcrash _)

end

/-! ## What a run comes to -/

/-- What a run comes to with the build of a graph in hand, whose name was printed. -/
inductive Delivers (storage : Storage) (options : Options) (g : Graph) (build : Build)
    (outcome : Outcome) : Prop where
  | refused (bad : build.ok = false) (refuses : Refuses storage outcome)
      (errors : outcome.told = Text.join (build.errors.map errorLine))
  | printed (good : build.ok = true) (print : options.print = true)
      (encodable : build.source.isEncodable = true)
      (prints : Prints storage (progress g ++ build.source) outcome)
  | unprinted (good : build.ok = true) (print : options.print = true)
      (lone : build.source.isEncodable = false)
      (crashes : ∃ crash, Crashes storage crash outcome)
  | unplaced (good : build.ok = true) (print : options.print = false)
      (out : ∀ directory ∈ options.out, ¬ Text.IsAskable directory)
      (crashes : ∃ crash, Crashes storage crash outcome)
  | saved (directory : Text) (good : build.ok = true) (print : options.print = false)
      (out : options.out = some directory) (askable : Text.IsAskable directory)
      (encodable : storage.Opens ((Path.ofString directory).child (Script.fileName g.name)) →
        build.source.isEncodable = true ∧ directory.isEncodable = true)
      (saves : Saves storage ((Path.ofString directory).child (Script.fileName g.name))
        build.source (progress g) outcome)
  | broken (directory : Text) (good : build.ok = true) (print : options.print = false)
      (out : options.out = some directory)
      (opens : storage.Opens ((Path.ofString directory).child (Script.fileName g.name)))
      (lone : build.source.isEncodable = false ∨ directory.isEncodable = false)
      (breaks : Breaks storage ((Path.ofString directory).child (Script.fileName g.name)) outcome)

section

variable (storage : Storage) (options : Options) (notices : List Snapshot.Notice) {loaded : Graph}

theorem delivers_workOn {build : Build}
    (hname : (named options loaded).name.isEncodable = true)
    (h : (named options loaded).build = .ok build) :
    Delivers storage options (named options loaded) build
      (finish storage (workOn options notices loaded)) := by
  unfold workOn deliver
  simp only
  generalize named options loaded = g at *
  rw [if_pos hname, h]
  simp only
  split
  next hbad =>
    have hbad : build.ok = false := by simpa using hbad
    have herrors : build.errors ≠ [] := by
      simpa [Build.ok, Build.errors] using hbad
    exact .refused hbad (refuses_finish storage rfl (hasErrorLine_join herrors)) rfl
  next hgood =>
    have hgood : build.ok = true := by simpa using hgood
    split
    next hprint =>
      unfold printed
      split
      next hsource => exact .printed hgood hprint hsource ⟨rfl, rfl, rfl, rfl⟩
      next hsource =>
        exact .unprinted hgood hprint (by simpa using hsource) ⟨_, crashes_finish storage rfl rfl⟩
    next hprint =>
      have hprint : options.print = false := by simpa using hprint
      split
      next hout =>
        exact .unplaced hgood hprint (by simp [hout]) ⟨_, crashes_finish storage rfl rfl⟩
      next directory hout =>
        by_cases haskable : Text.IsAskable directory
        · by_cases hlone :
            storage.Opens ((Path.ofString directory).child (Script.fileName g.name)) →
              build.source.isEncodable = true ∧ directory.isEncodable = true
          · exact .saved directory hgood hprint hout haskable hlone
              (saves_finish storage rfl rfl rfl haskable (Script.isEncodable_fileName hname)
                (Script.not_hasNull_fileName g.name) hlone)
          · rw [Classical.not_imp, not_and_or] at hlone
            obtain ⟨hopens, hlone⟩ := hlone
            simp only [Bool.not_eq_true] at hlone
            exact .broken directory hgood hprint hout hopens hlone
              (breaks_finish storage rfl rfl hopens hlone)
        · exact .unplaced hgood hprint (by simpa [hout] using haskable)
            (exists_crashes_finish storage rfl rfl haskable)

/-- A name that cannot be printed ends the run at once. -/
theorem crashes_workOn (hname : (named options loaded).name.isEncodable = false) :
    Crashes storage .notEncodable (finish storage (workOn options notices loaded)) := by
  unfold workOn
  simp only
  rw [hname]
  exact crashes_finish storage rfl rfl

end

/-- What a run comes to without a graph, by the reason. What no message covers
ends it at once. -/
def Fails (storage : Storage) (options : Options) (outcome : Outcome) :
    Snapshot.LoadError → Prop
  | .schema _ => Refuses storage outcome
  | .content (.json (.malformed ..)) => Refuses storage outcome
  | .content (.json (.tooManyDigits count)) => Crashes storage (.tooManyDigits count) outcome
  | .content .notUtf8 => Crashes storage .notUtf8 outcome
  | .write e => Crashes storage (.write e) outcome
  | .storage e =>
    (storage.isThere (Path.ofString options.snapshot) = .ok false ∧ Refuses storage outcome) ∨
      (storage.isThere (Path.ofString options.snapshot) ≠ .ok false ∧
        Crashes storage (.storage e) outcome)

/-- The run and the loading take the content of a file apart alike. -/
theorem work_of_loadContent_ok {options : Options} {content : ByteArray} {g : Graph}
    (h : (Snapshot.loadContent content options.strict).result = .ok g) :
    work options content =
      workOn options (Snapshot.loadContent content options.strict).notices g := by
  revert h
  unfold Snapshot.loadContent work
  rcases Snapshot.readContent content with e | value
  · nofun
  · simp only
    rcases (Snapshot.read options.strict value).result with e | g
    · nofun
    · rintro ⟨⟩
      rfl

theorem fails_work {storage : Storage} {options : Options} {content : ByteArray}
    {e : Snapshot.LoadError} (h : (Snapshot.loadContent content options.strict).result = .error e) :
    Fails storage options (finish storage (work options content)) e := by
  revert h
  unfold Snapshot.loadContent work
  rcases Snapshot.readContent content with (_ | ⟨fault, place⟩ | count) | value
  · rintro ⟨⟩
    exact crashes_finish storage rfl rfl
  · rintro ⟨⟩
    exact refuses_finish storage rfl (hasErrorLine_errorLine _)
  · rintro ⟨⟩
    exact crashes_finish storage rfl rfl
  · simp only
    rcases (Snapshot.read options.strict value).result with e | g
    · rintro ⟨⟩
      exact refuses_finish storage rfl (hasErrorLine_errorLine _)
    · nofun

theorem build_of_read_ok {storage : Storage} {options : Options} {content : ByteArray}
    (h : storage.read (Path.ofString options.snapshot) = .ok content) :
    build storage options = finish storage (work options content) := by
  unfold build
  simp only
  rw [Storage.isThere_of_read_ok h, h]

/-- A file that gives no graph makes the run fail. -/
theorem fails_build {storage : Storage} {options : Options} {e : Snapshot.LoadError}
    (h : (Snapshot.load storage (Path.ofString options.snapshot) options.strict).result =
      .error e) : Fails storage options (build storage options) e := by
  rcases hread : storage.read (Path.ofString options.snapshot) with e' | content
  · rw [Snapshot.load_of_read_error hread] at h
    cases h
    unfold build
    simp only
    rcases hthere : storage.isThere (Path.ofString options.snapshot) with e | (_ | _)
    · rw [Storage.read_of_isThere_error hthere] at hread
      cases hread
      exact .inr ⟨by simp [hthere], ⟨rfl, rfl⟩, rfl⟩
    · exact .inl ⟨hthere, rfl, hasErrorLine_errorLine _, rfl⟩
    · simp only
      rw [hread]
      exact .inr ⟨by simp [hthere], ⟨rfl, rfl⟩, rfl⟩
  · rw [Snapshot.load_of_read_ok hread] at h
    rw [build_of_read_ok hread]
    exact fails_work h

section

variable {storage : Storage} {options : Options} {g : Graph}

/-- A file that gives a graph has the run work on it. -/
theorem build_of_load_ok
    (h : (Snapshot.load storage (Path.ofString options.snapshot) options.strict).result = .ok g) :
    build storage options = finish storage (workOn options
      (Snapshot.load storage (Path.ofString options.snapshot) options.strict).notices g) := by
  rcases hread : storage.read (Path.ofString options.snapshot) with e | content
  · rw [Snapshot.load_of_read_error hread] at h
    cases h
  · rw [Snapshot.load_of_read_ok hread] at h ⊢
    rw [build_of_read_ok hread, work_of_loadContent_ok h]

/-- A graph under a name that can be printed is delivered. -/
theorem delivers_build {b : Build}
    (h : (Snapshot.load storage (Path.ofString options.snapshot) options.strict).result = .ok g)
    (hname : (named options g).name.isEncodable = true) (hbuild : (named options g).build = .ok b) :
    Delivers storage options (named options g) b (build storage options) := by
  rw [build_of_load_ok h]
  exact delivers_workOn storage options _ hname hbuild

theorem crashes_build
    (h : (Snapshot.load storage (Path.ofString options.snapshot) options.strict).result = .ok g)
    (hname : (named options g).name.isEncodable = false) :
    Crashes storage .notEncodable (build storage options) := by
  rw [build_of_load_ok h]
  exact crashes_workOn storage options _ hname

/-- The name in the options is one to build under, unless it is empty. -/
theorem exists_named_eq (options : Options) (g : Graph) :
    ∃ name, named options g = g.underName name := by
  unfold named
  split
  next => exact ⟨none, rfl⟩
  next name _ =>
    split
    next => exact ⟨none, rfl⟩
    next => exact ⟨some name, rfl⟩

/-- A graph that was loaded is built under the name of the options. -/
theorem exists_build_named
    (h : (Snapshot.load storage (Path.ofString options.snapshot) options.strict).result = .ok g) :
    ∃ build, (named options g).build = .ok build := by
  obtain ⟨name, hname⟩ := exists_named_eq options g
  rw [hname]
  exact Snapshot.exists_buildAs_of_load h name

end

theorem run_of_build {arguments : List Text} {options : Options}
    (h : readArguments arguments = .ok (.build options)) (storage : Storage) :
    run storage arguments = build storage options := by
  rw [run, h]

/-! ## What a run logs -/

end CommandLine

end PipelineBoard
