-- The laws of inspections: they are a monad, a sequence of inspections finds
-- something just if each of them does, and what notices do to an inspection.
import PipelineBoard.Snapshot.Inspection

namespace PipelineBoard.Snapshot.Inspection

variable {α β γ : Type}

/-! ## A monad -/

theorem found_andThen (value : α) (next : α → Inspection β) :
    (found value).andThen next = next value := by
  simp [andThen, found]

theorem andThen_found (first : Inspection α) : first.andThen found = first := by
  obtain ⟨notices, result⟩ := first
  cases result <;> simp [andThen, found]

theorem andThen_assoc (first : Inspection α) (next : α → Inspection β)
    (last : β → Inspection γ) :
    (first.andThen next).andThen last = first.andThen fun value => (next value).andThen last := by
  obtain ⟨notices, result⟩ := first
  cases result with
  | error e => rfl
  | ok value =>
    simp only [andThen]
    cases (next value).result with
    | error e => rfl
    | ok middle => simp only [List.append_assoc]

instance : LawfulMonad Inspection :=
  LawfulMonad.mk' Inspection andThen_found found_andThen andThen_assoc

/-! ## Results -/

variable {first : Inspection α} {next : α → Inspection β}

theorem result_bind_of_ok (value : α) (h : first.result = .ok value) :
    (first >>= next).result = (next value).result := by
  rw [bind_eq]
  unfold andThen
  rw [h]

/-- What an inspection of two parts finds, each part found. -/
theorem of_result_bind {value : β} (h : (first >>= next).result = .ok value) :
    ∃ middle, first.result = .ok middle ∧ (next middle).result = .ok value := by
  rw [bind_eq] at h
  unfold andThen at h
  rcases hfirst : first.result with e | middle
  · rw [hfirst] at h
    cases h
  · rw [hfirst] at h
    exact ⟨middle, rfl, h⟩

theorem result_found_iff {value other : α} : (found value).result = .ok other ↔ other = value :=
  ⟨fun h => (Except.ok.inj h).symm, fun h => h ▸ rfl⟩

theorem result_fail_ne (error : SchemaError) (value : α) : (fail error).result ≠ .ok value :=
  fun h => by cases h

theorem result_expect_iff {error : SchemaError} {what : Option α} {value : α} :
    (expect error what).result = .ok value ↔ what = some value := by
  cases what with
  | none => simp [expect, fail]
  | some other => simp [expect, found]

theorem result_demand_iff {condition : Bool} {error : SchemaError} :
    (demand condition error).result = .ok () ↔ condition = true := by
  cases condition with
  | false => simp [demand, fail]
  | true => simp [demand, found]

/-! ## Notices -/

theorem eq_found {inspection : Inspection α} {value : α} (hquiet : inspection.notices = [])
    (hresult : inspection.result = .ok value) : inspection = found value := by
  obtain ⟨notices, result⟩ := inspection
  simp only at hquiet hresult
  rw [hquiet, hresult, found]

/-- Reports notices one after the other. -/
def reportAll (strict : Bool) : List Notice → Inspection Unit
  | [] => pure ()
  | notice :: rest => do
    report strict notice
    reportAll strict rest

variable {strict : Bool}

theorem reportAll_append (notices others : List Notice) :
    reportAll strict (notices ++ others) = (do
      reportAll strict notices
      reportAll strict others) := by
  induction notices with
  | nil => rw [List.nil_append, reportAll, pure_bind]
  | cons notice rest ih => rw [List.cons_append, reportAll, ih, reportAll, bind_assoc]

theorem reportAll_if {condition : Bool} {notice : Notice} :
    reportAll strict (if condition then [notice] else []) =
      if condition then report strict notice else pure () := by
  cases condition with
  | false => rfl
  | true => exact bind_pure (report strict notice)

/-- An inspection that is not strict keeps the notices and goes on. -/
theorem reportAll_lax (notices : List Notice) : reportAll false notices = ⟨notices, .ok ()⟩ := by
  induction notices with
  | nil => rfl
  | cons notice rest ih =>
    rw [reportAll, ih]
    rfl

/-- A strict inspection goes on only if there is nothing to report. -/
theorem result_reportAll_strict_iff {notices : List Notice} :
    (reportAll true notices).result = .ok () ↔ notices = [] := by
  cases notices with
  | nil => simp [reportAll, pure_eq, found]
  | cons notice rest => simp [reportAll, report, fail, bind_eq, andThen]

end PipelineBoard.Snapshot.Inspection
