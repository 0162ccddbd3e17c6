-- What writing a file and making directories leave of a file tree: the file is
-- read back, and every other place is as it was but for new directories.
import PipelineBoard.Proofs.Lists
import PipelineBoard.Storage.Basic

namespace PipelineBoard

namespace Storage

/-! ## One place -/

theorem entry_put_self (s : Storage) {place : List Text} (h : place ≠ []) (entry : Entry) :
    entry? (s.put place entry) place = some entry := by
  unfold entry? put
  rw [if_neg (by simpa using h), List.lookup_append,
    lookup_filter_key (fun other => other != place)]
  simp

theorem entry_put_ne (s : Storage) {place other : List Text} (h : other ≠ place)
    (entry : Entry) : entry? (s.put place entry) other = s.entry? other := by
  have hother : (other == place) = false := by simpa using h
  unfold entry? put
  rw [List.lookup_append, lookup_filter_key (fun other => other != place)]
  simp [h, List.lookup_cons, hother]

/-! ## Following names -/

/-- A name leads to a directory above, or to what is at a place below the root. -/
theorem look_cases {s : Storage} {place target : List Text} {name : Text}
    {entry : Option Entry} (h : s.look place name = .ok (target, entry)) :
    (name = ".." ∧ target = place.dropLast ∧ entry = some .directory) ∨
      (name ≠ ".." ∧ ¬ mostNameBytes < byteSize name ∧ target = place ++ [name] ∧
        entry = s.entry? target) := by
  unfold look at h
  split at h
  next hup =>
    cases h
    exact Or.inl ⟨hup, rfl, rfl⟩
  next hup =>
    split at h
    next => cases h
    next hlong =>
      cases h
      exact Or.inr ⟨hup, hlong, rfl, rfl⟩

/-- What the names lead to, if it is no directory, is what is at that place. -/
theorem entry_of_follow {s : Storage} {place names target : List Text} {entry : Option Entry}
    (h : s.follow place names = .ok (target, entry)) (hentry : entry ≠ some .directory) :
    target ≠ [] ∧ s.entry? target = entry := by
  fun_induction follow s place names with
  | case1 place =>
    cases h
    exact absurd rfl hentry
  | case2 place name =>
    rcases look_cases h with ⟨_, _, hdirectory⟩ | ⟨_, _, htarget, hthere⟩
    · exact absurd hdirectory hentry
    · exact ⟨by simp [htarget], hthere.symm⟩
  | case3 => cases h
  | case4 => cases h
  | case5 => cases h
  | case6 _ _ _ _ _ _ ih => exact ih h

/-- With an entry put where names led to no directory, they lead to that entry. -/
theorem follow_put {s : Storage} {place names target : List Text} {entry : Option Entry}
    (h : s.follow place names = .ok (target, entry)) (hentry : entry ≠ some .directory)
    (new : Entry) : (s.put target new).follow place names = .ok (target, some new) := by
  have hhere := entry_of_follow h hentry
  -- A directory on the way stands elsewhere, since no directory is replaced.
  have hway : ∀ {place way : List Text} {name : Text},
      s.look place name = .ok (way, some .directory) →
        (s.put target new).look place name = .ok (way, some .directory) := by
    intro place way name hlook
    rcases look_cases hlook with ⟨hup, hplace, _⟩ | ⟨hup, hlong, hplace, hthere⟩
    · rw [look, if_pos hup, hplace]
    · have hne : way ≠ target := by
        rintro rfl
        exact hentry (hhere.2 ▸ hthere.symm)
      rw [look, if_neg hup, if_neg hlong, ← hplace, entry_put_ne s hne, ← hthere]
  fun_induction follow s place names with
  | case1 place =>
    cases h
    exact absurd rfl hentry
  | case2 place name =>
    rcases look_cases h with ⟨_, _, hdirectory⟩ | ⟨hup, hlong, hplace, _⟩
    · exact absurd hdirectory hentry
    · rw [follow, look, if_neg hup, if_neg hlong, ← hplace, entry_put_self s hhere.1]
  | case3 => cases h
  | case4 => cases h
  | case5 => cases h
  | case6 place name rest hrest way hlook ih =>
    rw [follow, hway hlook]
    · exact ih h
    · exact hrest

/-- A path that is found has a text that may be looked up, and its names lead
there. -/
theorem find_eq_ok_iff {s : Storage} {path : Path} {found : List Text × Option Entry} :
    s.find path = .ok found ↔
      (unaskable? path.text = none ∧ ¬ mostPathBytes < byteSize path.text) ∧
        s.follow (if path.root.isEmpty then s.home else []) path.names = .ok found := by
  unfold find
  split
  next hfault =>
    refine iff_of_false nofun fun h => ?_
    cases hfault.symm.trans h.1.1
  next haskable =>
    split
    next hlong => exact iff_of_false nofun fun h => h.1.2 hlong
    next hlong => exact ⟨fun h => ⟨⟨haskable, hlong⟩, h⟩, fun h => h.2⟩

theorem find_put {s : Storage} {path : Path} {place : List Text} {entry : Option Entry}
    (h : s.find path = .ok (place, entry)) (hentry : entry ≠ some .directory) (new : Entry) :
    (s.put place new).find path = .ok (place, some new) := by
  obtain ⟨htext, hfollow⟩ := find_eq_ok_iff.mp h
  exact find_eq_ok_iff.mpr ⟨htext, follow_put hfollow hentry new⟩

theorem entry_of_find {s : Storage} {path : Path} {place : List Text} {entry : Option Entry}
    (h : s.find path = .ok (place, entry)) (hentry : entry ≠ some .directory) :
    place ≠ [] ∧ s.entry? place = entry :=
  entry_of_follow (find_eq_ok_iff.mp h).2 hentry

/-! ## Reading -/

theorem isThere_of_read_ok {s : Storage} {path : Path} {content : ByteArray}
    (h : s.read path = .ok content) : s.isThere path = .ok true := by
  unfold read at h
  split at h
  next => cases h
  next => cases h
  next => cases h
  next hfind =>
    unfold isThere
    rw [hfind]
    rfl

theorem read_of_isThere_error {s : Storage} {path : Path} {e : StorageError}
    (h : s.isThere path = .error e) : s.read path = .error e := by
  unfold isThere at h
  split at h
  next => cases h
  next hfind =>
    cases h
    rw [read, hfind]
  next => cases h

/-- At a place there is what was there, or a directory where nothing was. -/
def KeptAt (s s' : Storage) (place : List Text) : Prop :=
  s'.entry? place = s.entry? place ∨
    s.entry? place = none ∧ s'.entry? place = some .directory

/-- Nothing happened to a file tree but that directories were made. -/
def OnlyDirectories (s s' : Storage) : Prop := ∀ place, KeptAt s s' place

theorem KeptAt.trans {s s' s'' : Storage} {place : List Text} (h : KeptAt s s' place)
    (h' : KeptAt s' s'' place) : KeptAt s s'' place := by
  unfold KeptAt at *
  grind

theorem OnlyDirectories.refl (s : Storage) : OnlyDirectories s s := fun _ => .inl rfl

theorem OnlyDirectories.trans {s s' s'' : Storage} (h : OnlyDirectories s s')
    (h' : OnlyDirectories s' s'') : OnlyDirectories s s'' :=
  fun place => (h place).trans (h' place)

theorem onlyDirectories_makeDirectory (s : Storage) (path : Path) :
    OnlyDirectories s (s.makeDirectory path).1 := by
  unfold makeDirectory
  split
  next => exact .refl s
  next => exact .refl s
  next => exact .refl s
  next place hfind =>
    obtain ⟨hplace, hnothing⟩ := entry_of_find hfind nofun
    intro other
    by_cases hother : other = place
    · subst hother
      exact .inr ⟨hnothing, entry_put_self s hplace _⟩
    · exact .inl (entry_put_ne s hother _)

theorem onlyDirectories_makeWithParents (s : Storage) (root : Text) (names : List Text) :
    OnlyDirectories s (s.makeWithParents root names).1 := by
  induction names with
  | nil => exact onlyDirectories_makeDirectory s _
  | cons name parents ih =>
    rw [makeWithParents]
    split
    next =>
      split
      next hparents => exact hparents ▸ ih
      next s' _ hparents =>
        rw [hparents] at ih
        exact ih.trans (onlyDirectories_makeDirectory s' _)
    next => exact onlyDirectories_makeDirectory s _

theorem onlyDirectories_makeDirectories (s : Storage) (path : Path) :
    OnlyDirectories s (s.makeDirectories path).1 :=
  onlyDirectories_makeWithParents s path.root path.names.reverse

/-! ## Writing a file -/

/-- A file was written at a path: it is read back there, and nothing happened
anywhere else but that directories were made. -/
structure Wrote (s s' : Storage) (path : Path) (content : ByteArray) : Prop where
  back : s'.read path = .ok content
  others : ∃ place, s'.find path = .ok (place, some (.file content)) ∧
    ∀ other, other ≠ place → KeptAt s s' other

theorem Wrote.of_onlyDirectories {s s' s'' : Storage} {path : Path} {content : ByteArray}
    (h : OnlyDirectories s s') (h' : Wrote s' s'' path content) : Wrote s s'' path content := by
  obtain ⟨back, place, hplace, hothers⟩ := h'
  exact ⟨back, place, hplace, fun other hother => (h other).trans (hothers other hother)⟩

theorem wrote_of_write_ok {s s' : Storage} {path : Path} {content : ByteArray}
    (h : s.write path content = (s', .ok ())) : Wrote s s' path content := by
  unfold write at h
  split at h
  next => cases h
  next => cases h
  next place entry hentry hfind =>
    cases h
    have hput := find_put hfind (fun e => hentry (e ▸ rfl)) (.file content)
    refine ⟨?_, place, hput, fun other hother => .inl (entry_put_ne s hother _)⟩
    rw [read, hput]

theorem write_eq_of_error {s s' : Storage} {path : Path} {content : ByteArray} {e : StorageError}
    (h : s.write path content = (s', .error e)) : s' = s := by
  unfold write at h
  split at h
  next =>
    cases h
    rfl
  next =>
    cases h
    rfl
  next => cases h

end Storage

end PipelineBoard
