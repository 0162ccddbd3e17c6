-- Loading and building a snapshot file, step by step: the file, its text, the
-- value, the graph.
import PipelineBoard.Proofs.Snapshot.Short
import PipelineBoard.Proofs.Text.Utf8
import PipelineBoard.Snapshot.Load

namespace PipelineBoard

open Text

namespace Snapshot

/-! ## Loading -/

theorem readContent_eq_ok_iff {content : ByteArray} {value : Json} :
    readContent content = .ok value ↔ ∃ text, ofUtf8? content = some text ∧
      Json.read (Text.ofList (unifyFeeds text.toList)) = .ok value := by
  unfold readContent
  rcases ofUtf8? content with _ | text
  · simp
  · rcases hvalue : Json.read (Text.ofList (unifyFeeds text.toList)) with e' | value <;>
      simp [hvalue]

section

variable {storage : Storage} {path : Path} {strict : Bool} {name : Option Text}

theorem load_of_read_ok {content : ByteArray} (h : storage.read path = .ok content) :
    load storage path strict = loadContent content strict := by
  unfold load
  rw [h]

theorem load_of_read_error {e : StorageError} (h : storage.read path = .error e) :
    load storage path strict = ⟨[], .error (.storage e)⟩ := by
  unfold load
  rw [h]

theorem load_eq_ok_iff {g : Graph} : (load storage path strict).result = .ok g ↔
    ∃ content value, storage.read path = .ok content ∧ readContent content = .ok value ∧
      (read strict value).result = .ok g := by
  rcases hread : storage.read path with e | content
  · simp [load_of_read_error hread]
  · rw [load_of_read_ok hread]
    unfold loadContent
    rcases hcontent : readContent content with e | value
    · simp [hcontent]
    · simp only [Except.ok.injEq, exists_and_left, exists_eq_left', hcontent]
      rcases (read strict value).result with e | g' <;> simp [Except.mapError]

/-- The graph of a file has params that can be written, as they were read. -/
theorem hasShortParams_load {g : Graph} (h : (load storage path strict).result = .ok g) :
    g.HasShortParams := by
  obtain ⟨content, value, _, hcontent, hgraph⟩ := load_eq_ok_iff.mp h
  obtain ⟨text, _, hread⟩ := readContent_eq_ok_iff.mp hcontent
  exact hasShortParams_read hgraph (Json.isShort_of_read hread)

theorem exists_buildAs_of_load {g : Graph} (h : (load storage path strict).result = .ok g)
    (name : Option Text) : ∃ build, g.buildAs name = .ok build :=
  ((hasShortParams_load h).underName name).exists_build

end

end Snapshot

end PipelineBoard
