import DialogueScript.Run.Program

/-!
# Runs, one statement at a time

* `Program.runFrom_of_none`, `runFrom_of_exit`, `runFrom_of_crash`, `runFrom_of_failure` — what a
  run does after a statement of the program, for each way in which the statement can end;
* `Program.Executes` — the statements of a program that a run executes, each with the session there;
* `Program.runFrom_eq_error_iff` — a run has no outcome exactly when such a statement crashes;
* `Program.runFrom_reports`, `Program.mem_failures` — the failures of an outcome are those of the
  statements that the run executes.
-/

namespace DialogueScript

/-- The failure that goes on record when a statement of a program stops. -/
def Stop.failure? (why : Stop) (stmt : Stmt) : Option Failure :=
  match why with
  | .failure f => some f
  | .tooDeep => some ⟨.runTooDeep, stmt.span, none⟩
  | .exit | .crash _ => none

theorem Stop.exit_or_crash_or_failure (why : Stop) (stmt : Stmt) :
    why = .exit ∨ (∃ c, why = .crash c) ∨ ∃ f, why.failure? stmt = some f := by
  cases why with
  | exit => exact .inl rfl
  | failure f => exact .inr (.inr ⟨f, rfl⟩)
  | tooDeep => exact .inr (.inr ⟨_, rfl⟩)
  | crash c => exact .inr (.inl ⟨c, rfl⟩)

namespace Program

variable {policy : ErrorPolicy} {source : Option String} {limits : Limits} {stmt : Stmt}
  {rest : List Stmt} {failures : List Failure} {s t : Session} {why : Stop}

theorem runFrom_of_none (h : execute limits.rounds limits.depth stmt s = (t, none)) :
    runFrom policy source limits (stmt :: rest) failures s =
      runFrom policy source limits rest failures t := by
  rw [runFrom, h]

theorem runFrom_of_exit (h : execute limits.rounds limits.depth stmt s = (t, some .exit)) :
    runFrom policy source limits (stmt :: rest) failures s = (.ok ⟨true, failures⟩, t) := by
  rw [runFrom, h]

theorem runFrom_of_crash {c : Crash}
    (h : execute limits.rounds limits.depth stmt s = (t, some (.crash c))) :
    runFrom policy source limits (stmt :: rest) failures s = (.error c, t) := by
  rw [runFrom, h]

theorem runFrom_of_failure {f : Failure}
    (h : execute limits.rounds limits.depth stmt s = (t, some why))
    (hf : why.failure? stmt = some f) :
    runFrom policy source limits (stmt :: rest) failures s =
      if enough policy (failures ++ [f.quoting source]) then
        (.ok ⟨false, failures ++ [f.quoting source]⟩, t)
      else runFrom policy source limits rest (failures ++ [f.quoting source])
        (t.record (.recovered (f.quoting source).fault.code)) := by
  cases why with
  | exit => cases hf
  | failure g =>
    cases hf
    rw [runFrom, h]
  | tooDeep =>
    cases hf
    rw [runFrom, h]
  | crash c => cases hf

/-- The run of a program executes one of its statements in a session. -/
inductive Executes (policy : ErrorPolicy) (source : Option String) (limits : Limits) :
    List Stmt → List Failure → Session → Stmt → Session → Prop
  | here (stmt : Stmt) (rest : List Stmt) (failures : List Failure) (s : Session) :
      Executes policy source limits (stmt :: rest) failures s stmt s
  | completed {stmt stmt' : Stmt} {rest : List Stmt} {failures : List Failure} {s t u : Session}
      (h : execute limits.rounds limits.depth stmt s = (t, none))
      (hrest : Executes policy source limits rest failures t stmt' u) :
      Executes policy source limits (stmt :: rest) failures s stmt' u
  | failed {stmt stmt' : Stmt} {rest : List Stmt} {failures : List Failure} {s t u : Session}
      {why : Stop} {f : Failure} (h : execute limits.rounds limits.depth stmt s = (t, some why))
      (hf : why.failure? stmt = some f)
      (hgo : enough policy (failures ++ [f.quoting source]) = false)
      (hrest : Executes policy source limits rest (failures ++ [f.quoting source])
        (t.record (.recovered (f.quoting source).fault.code)) stmt' u) :
      Executes policy source limits (stmt :: rest) failures s stmt' u

theorem Executes.mem {p : List Stmt}
    (h : Executes policy source limits p failures s stmt t) : stmt ∈ p := by
  induction h with
  | here => exact List.mem_cons_self
  | completed _ _ ih => exact List.mem_cons_of_mem _ ih
  | failed _ _ _ _ ih => exact List.mem_cons_of_mem _ ih

/-- **A run has no outcome exactly when a statement it executes crashes.** -/
theorem runFrom_eq_error_iff {p : List Stmt} {c : Crash} :
    (runFrom policy source limits p failures s).1 = .error c ↔
      ∃ stmt t, Executes policy source limits p failures s stmt t ∧
        (execute limits.rounds limits.depth stmt t).2 = some (.crash c) := by
  constructor
  · intro h
    induction p generalizing failures s with
    | nil => cases h
    | cons stmt rest ih =>
      rcases hstep : execute limits.rounds limits.depth stmt s with ⟨t, _ | why⟩
      · rw [runFrom_of_none hstep] at h
        obtain ⟨stmt', u, hexec, hcrash⟩ := ih h
        exact ⟨stmt', u, .completed hstep hexec, hcrash⟩
      · rcases why.exit_or_crash_or_failure stmt with rfl | ⟨c', rfl⟩ | ⟨f, hf⟩
        · rw [runFrom_of_exit hstep] at h
          cases h
        · rw [runFrom_of_crash hstep] at h
          cases h
          exact ⟨stmt, s, .here _ _ _ _, by rw [hstep]⟩
        · rw [runFrom_of_failure hstep hf] at h
          split at h
          · cases h
          · rename_i hgo
            obtain ⟨stmt', u, hexec, hcrash⟩ := ih h
            exact ⟨stmt', u, .failed hstep hf (Bool.eq_false_iff.mpr hgo) hexec, hcrash⟩
  · rintro ⟨stmt, t, hexec, hcrash⟩
    induction hexec with
    | @here stmt rest failures s =>
      rcases hstep : execute limits.rounds limits.depth stmt s with ⟨t, why⟩
      rw [hstep] at hcrash
      cases hcrash
      rw [runFrom_of_crash hstep]
    | completed hstep _ ih =>
      rw [runFrom_of_none hstep]
      exact ih hcrash
    | failed hstep hf hgo _ ih =>
      rw [runFrom_of_failure hstep hf, hgo]
      exact ih hcrash

/-- Failures stay on record. -/
theorem failures_subset {p : List Stmt} {o : Outcome}
    (h : (runFrom policy source limits p failures s).1 = .ok o) : failures ⊆ o.failures := by
  induction p generalizing failures s with
  | nil =>
    cases h
    exact List.Subset.refl _
  | cons stmt rest ih =>
    rcases hstep : execute limits.rounds limits.depth stmt s with ⟨t, _ | why⟩
    · rw [runFrom_of_none hstep] at h
      exact ih h
    · rcases why.exit_or_crash_or_failure stmt with rfl | ⟨c, rfl⟩ | ⟨f, hf⟩
      · rw [runFrom_of_exit hstep] at h
        cases h
        exact List.Subset.refl _
      · rw [runFrom_of_crash hstep] at h
        cases h
      · rw [runFrom_of_failure hstep hf] at h
        split at h
        · cases h
          exact List.subset_append_left _ _
        · exact List.Subset.trans (List.subset_append_left _ _) (ih h)

/-- Every failure of a statement that is executed is on record in the end. -/
theorem runFrom_reports {p : List Stmt} {u : Session} {f : Failure} {o : Outcome}
    (hexec : Executes policy source limits p failures s stmt t)
    (hstep : execute limits.rounds limits.depth stmt t = (u, some why))
    (hf : why.failure? stmt = some f)
    (h : (runFrom policy source limits p failures s).1 = .ok o) :
    f.quoting source ∈ o.failures := by
  induction hexec with
  | here stmt rest failures s =>
    rw [runFrom_of_failure hstep hf] at h
    split at h
    · cases h
      simp
    · exact failures_subset h (by simp)
  | completed hnone _ ih =>
    rw [runFrom_of_none hnone] at h
    exact ih hstep hf h
  | failed hfail hg hgo _ ih =>
    rw [runFrom_of_failure hfail hg, hgo] at h
    exact ih hstep hf h

/-- Nothing else is on record. -/
theorem mem_failures {p : List Stmt} {o : Outcome} {g : Failure}
    (h : (runFrom policy source limits p failures s).1 = .ok o) (hg : g ∈ o.failures) :
    g ∈ failures ∨ ∃ stmt t why f, Executes policy source limits p failures s stmt t ∧
      (execute limits.rounds limits.depth stmt t).2 = some why ∧ why.failure? stmt = some f ∧
      g = f.quoting source := by
  induction p generalizing failures s with
  | nil =>
    cases h
    exact .inl hg
  | cons stmt rest ih =>
    rcases hstep : execute limits.rounds limits.depth stmt s with ⟨t, _ | why⟩
    · rw [runFrom_of_none hstep] at h
      rcases ih h with hg | ⟨stmt', u, why, f, hexec, hwhy⟩
      · exact .inl hg
      · exact .inr ⟨stmt', u, why, f, .completed hstep hexec, hwhy⟩
    · rcases why.exit_or_crash_or_failure stmt with rfl | ⟨c, rfl⟩ | ⟨f, hf⟩
      · rw [runFrom_of_exit hstep] at h
        cases h
        exact .inl hg
      · rw [runFrom_of_crash hstep] at h
        cases h
      · rw [runFrom_of_failure hstep hf] at h
        -- the failure of this statement, and those before it
        have hhere : g ∈ failures ++ [f.quoting source] →
            g ∈ failures ∨ ∃ stmt' u why f,
              Executes policy source limits (stmt :: rest) failures s stmt' u ∧
              (execute limits.rounds limits.depth stmt' u).2 = some why ∧
              why.failure? stmt' = some f ∧ g = f.quoting source := by
          intro hg
          rcases List.mem_append.mp hg with hg | hg
          · exact .inl hg
          · exact .inr ⟨stmt, s, why, f, .here _ _ _ _, by rw [hstep], hf, List.mem_singleton.mp hg⟩
        split at h
        · cases h
          exact hhere hg
        · rename_i hgo
          rcases ih h with hg | ⟨stmt', u, why', f', hexec, hwhy⟩
          · exact hhere hg
          · have hstop := Bool.eq_false_iff.mpr hgo
            exact .inr ⟨stmt', u, why', f', .failed hstep hf hstop hexec, hwhy⟩

end Program

end DialogueScript
