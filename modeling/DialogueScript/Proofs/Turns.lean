import DialogueScript.Proofs.Executions
import Mathlib.Data.List.Chain

/-!
# The turns of a run

A run takes the statements of its program in turn, each from where the one before it left off, up
to an exit or until the failures are enough.

* `Turn` — one statement of the program, executed from one session to the next;
* `Ended` — after these turns a run goes no further;
* `Course` — the turns of a run: they start with the program, follow on each other, and stop where
  they have ended and not before;
* `Program.runFrom_course` — every run that has an outcome takes such a course, and its outcome is
  the one of the course;
* `keepsOutput` — what has been printed stays printed;
* `Program.run_turns` — **the course of a run under either policy, and what a run that stops at the
  first failure has in common with one that proceeds**.
-/

namespace DialogueScript

/-- The same variables, lines to read and lines printed.  The events on record may differ. -/
structure Session.Resumes (s t : Session) : Prop where
  env : t.env = s.env
  input : t.input = s.input
  output : t.output = s.output

theorem Session.Resumes.refl (s : Session) : s.Resumes s := ⟨rfl, rfl, rfl⟩

theorem Session.Resumes.trans {s t u : Session} (hst : s.Resumes t) (htu : t.Resumes u) :
    s.Resumes u :=
  ⟨htu.env.trans hst.env, htu.input.trans hst.input, htu.output.trans hst.output⟩

theorem Session.Resumes.record (s : Session) (e : Event) : s.Resumes (s.record e) := ⟨rfl, rfl, rfl⟩

/-- One statement of a program, executed. -/
structure Turn where
  stmt : Stmt
  before : Session
  after : Session
  stopped : Option Stop

namespace Turn

/-- The failure of the statement, if it has failed. -/
def failure? (t : Turn) : Option Failure := t.stopped.bind (·.failure? t.stmt)

def failures (turns : List Turn) : List Failure := turns.filterMap failure?

/-- Where the turns lead that begin in `s`. -/
def lead (s : Session) (turns : List Turn) : Session := (turns.getLast?.map (·.after)).getD s

theorem lead_cons (s : Session) (t : Turn) (turns : List Turn) :
    lead s (t :: turns) = lead t.after turns := by
  cases turns with
  | nil => rfl
  | cons u turns => simp [lead, List.getLast?_cons]

theorem lead_resumes {s s' : Session} (h : s.Resumes s') (turns : List Turn) :
    (lead s turns).Resumes (lead s' turns) := by
  cases turns with
  | nil => exact h
  | cons t turns =>
    rw [lead_cons, lead_cons]
    exact .refl _

theorem failures_cons (t : Turn) (turns : List Turn) :
    failures (t :: turns) = failures [t] ++ failures turns := by
  rw [failures, ← List.singleton_append, List.filterMap_append]
  rfl

end Turn

/-- After these turns, with so many failures before them, a run goes no further: the last one was
an exit, the first failure with the policy to abort, or the failure that reaches the limit. -/
def Ended (policy : ErrorPolicy) (earlier : Nat) (turns : List Turn) : Prop :=
  ∃ t, turns.getLast? = some t ∧ (t.stopped = some .exit ∨
    t.failure?.isSome = true ∧
      (policy = .abort ∨ earlier + (Turn.failures turns).length = failureLimit))

/-- The turns of a run of a program that begins in `s` with so many failures before it. -/
structure Course (policy : ErrorPolicy) (limits : Limits) (earlier : Nat) (p : List Stmt)
    (s : Session)
    (turns : List Turn) : Prop where
  /-- Each statement once, in order, and none left out. -/
  stmts : turns.map (·.stmt) <+: p
  executed : ∀ t ∈ turns, execute limits.rounds limits.depth t.stmt t.before = (t.after, t.stopped)
  uncrashed : ∀ t ∈ turns, ∀ c, t.stopped ≠ some (.crash c)
  first : ∀ t ∈ turns.head?, s.Resumes t.before
  next : turns.IsChain fun t u => t.after.Resumes u.before
  /-- A run does not end before its last turn. -/
  goesOn : ∀ front, front <+: turns → front ≠ turns → ¬ Ended policy earlier front
  ends : turns.map (·.stmt) = p ∨ Ended policy earlier turns

section

variable {policy : ErrorPolicy} {source : Option String} {limits : Limits} {earlier : Nat}
  {stmt : Stmt} {p rest : List Stmt} {s s' : Session} {t : Turn} {turns : List Turn}

theorem not_ended_nil : ¬ Ended policy earlier [] := by
  rintro ⟨t, ht, -⟩
  cases ht

/-- Whether the turns have ended is up to those after the first. -/
theorem ended_cons (h : turns ≠ []) :
    Ended policy earlier (t :: turns) ↔
      Ended policy (earlier + (Turn.failures [t]).length) turns := by
  have hlast : (t :: turns).getLast? = turns.getLast? := by
    obtain ⟨u, turns, rfl⟩ := List.exists_cons_of_ne_nil h
    rw [List.getLast?_cons_cons]
  have hcount : (Turn.failures (t :: turns)).length =
      (Turn.failures [t]).length + (Turn.failures turns).length := by
    rw [Turn.failures_cons, List.length_append]
  rw [Ended, Ended, hlast, hcount, Nat.add_assoc]

theorem Course.nil : Course policy limits earlier [] s [] where
  stmts := List.prefix_rfl
  executed := by simp
  uncrashed := by simp
  first := by simp
  next := .nil
  goesOn _ hfront hne := absurd (List.prefix_nil.mp hfront) hne
  ends := .inl rfl

/-- A run that ends with its first turn. -/
theorem Course.last
    (hexec : execute limits.rounds limits.depth t.stmt t.before = (t.after, t.stopped))
    (hcrash : ∀ c, t.stopped ≠ some (.crash c)) (hend : Ended policy earlier [t]) :
    Course policy limits earlier (t.stmt :: rest) t.before [t] where
  stmts := List.prefix_append [t.stmt] rest
  executed := by simpa using hexec
  uncrashed := by simpa using hcrash
  first := by simpa using Session.Resumes.refl t.before
  next := .singleton t
  goesOn front hfront hne := by
    rcases List.prefix_cons_iff.mp hfront with rfl | ⟨front', rfl, hfront'⟩
    · exact not_ended_nil
    · rw [List.prefix_nil.mp hfront'] at hne
      exact absurd rfl hne
  ends := .inr hend

/-- A run that goes on after its first turn. -/
theorem Course.cons
    (hexec : execute limits.rounds limits.depth t.stmt t.before = (t.after, t.stopped))
    (hcrash : ∀ c, t.stopped ≠ some (.crash c)) (hgo : ¬ Ended policy earlier [t])
    (hresumes : t.after.Resumes s')
    (hrest : Course policy limits (earlier + (Turn.failures [t]).length) rest s' turns) :
    Course policy limits earlier (t.stmt :: rest) t.before (t :: turns) where
  stmts := by
    rw [List.map_cons, List.prefix_cons_inj]
    exact hrest.stmts
  executed := List.forall_mem_cons.mpr ⟨hexec, hrest.executed⟩
  uncrashed := List.forall_mem_cons.mpr ⟨hcrash, hrest.uncrashed⟩
  first := by simpa using Session.Resumes.refl t.before
  next := List.isChain_cons.mpr ⟨fun u hu => hresumes.trans (hrest.first u hu), hrest.next⟩
  goesOn front hfront hne := by
    rcases List.prefix_cons_iff.mp hfront with rfl | ⟨front', rfl, hfront'⟩
    · exact not_ended_nil
    · by_cases hnil : front' = []
      · rwa [hnil]
      · rw [ended_cons hnil]
        exact hrest.goesOn front' hfront' fun heq => hne (by rw [heq])
  ends := by
    by_cases hnil : turns = []
    · subst hnil
      rcases hrest.ends with hp | hend
      · exact .inl (by rw [List.map_cons, hp])
      · exact absurd hend not_ended_nil
    · rw [ended_cons hnil]
      exact hrest.ends.imp_left fun hp => by rw [List.map_cons, hp]

/-- A completed turn does not end a run. -/
theorem not_ended_of_completed (h : t.stopped = none) : ¬ Ended policy earlier [t] := by
  rintro ⟨u, hu, hend⟩
  obtain rfl : t = u := by simpa using hu
  rcases hend with hexit | ⟨hfail, -⟩
  · rw [h] at hexit
    cases hexit
  · simp [Turn.failure?, h] at hfail

/-- A failed turn ends a run if its failure is enough. -/
theorem ended_of_failed {f : Failure} {why : Stop} (hstop : t.stopped = some why)
    (hf : why.failure? t.stmt = some f) :
    Ended policy earlier [t] ↔ policy = .abort ∨ earlier + 1 = failureLimit := by
  have hfail : t.failure? = some f := by rw [Turn.failure?, hstop, Option.bind_some, hf]
  have hexit : t.stopped ≠ some .exit := by
    rintro hexit
    rw [hexit] at hstop
    cases hstop
    cases hf
  simp [Ended, Turn.failures, hfail, hexit]

end

/-! ## Every run takes its course -/

namespace Program

variable {policy : ErrorPolicy} {source : Option String} {limits : Limits} {p : List Stmt}
  {failures : List Failure} {s : Session} {o : Outcome}

theorem enough_iff {earlier : Nat} (hlimit : earlier < failureLimit)
    (hlength : failures.length = earlier + 1) :
    enough policy failures = true ↔ policy = .abort ∨ earlier + 1 = failureLimit := by
  have hle : failureLimit ≤ earlier + 1 ↔ earlier + 1 = failureLimit := by omega
  simp [enough, hlength, hle]

/-- **A run with an outcome takes its turns as a course says, puts on record one failure for each
turn that failed, and leaves where the last turn leads.** -/
theorem runFrom_course (hlimit : failures.length < failureLimit)
    (h : (runFrom policy source limits p failures s).1 = .ok o) :
    ∃ turns, Course policy limits failures.length p s turns ∧
      o.failures = failures ++ (Turn.failures turns).map (·.quoting source) ∧
      (o.exited = true ↔ ∃ t ∈ turns, t.stopped = some .exit) ∧
      (Turn.lead s turns).Resumes (runFrom policy source limits p failures s).2 := by
  induction p generalizing failures s with
  | nil =>
    cases h
    exact ⟨[], .nil, by simp [Turn.failures], by simp, .refl s⟩
  | cons stmt rest ih =>
    rcases hstep : execute limits.rounds limits.depth stmt s with ⟨u, _ | why⟩
    · -- the statement completes
      let t : Turn := ⟨stmt, s, u, none⟩
      have hnone : Turn.failures [t] = [] := rfl
      rw [runFrom_of_none hstep] at h ⊢
      obtain ⟨turns, hcourse, hfailures, hexited, hlead⟩ := ih hlimit h
      refine ⟨t :: turns,
        .cons (t := t) hstep (by simp [t]) (not_ended_of_completed rfl) (.refl u) ?_, ?_, ?_, ?_⟩
      · rw [hnone]
        exact hcourse
      · exact hfailures
      · simpa [t] using hexited
      · rw [Turn.lead_cons]
        exact hlead
    · let t : Turn := ⟨stmt, s, u, some why⟩
      rcases why.exit_or_crash_or_failure stmt with rfl | ⟨c, rfl⟩ | ⟨f, hf⟩
      · -- it is an exit
        rw [runFrom_of_exit hstep] at h ⊢
        cases h
        have hend : Ended policy failures.length [t] := ⟨t, rfl, .inl rfl⟩
        have hnone : Turn.failures [t] = [] := rfl
        refine ⟨[t], .last hstep (by simp [t]) hend, ?_, ?_, .refl u⟩
        · simp [hnone]
        · simp [t]
      · rw [runFrom_of_crash hstep] at h
        cases h
      · -- it fails
        have hone : Turn.failures [t] = [f] := by simp [Turn.failures, Turn.failure?, t, hf]
        have hended : Ended policy failures.length [t] ↔
            policy = .abort ∨ failures.length + 1 = failureLimit := ended_of_failed rfl hf
        have hexit : t.stopped ≠ some .exit := by
          rintro hexit
          cases hexit
          cases hf
        have hcrash : ∀ c, t.stopped ≠ some (.crash c) := by
          rintro c hcrash
          cases hcrash
          cases hf
        have hlength : (failures ++ [f.quoting source]).length = failures.length + 1 := by simp
        have henough : enough policy (failures ++ [f.quoting source]) = true ↔ _ :=
          enough_iff hlimit hlength
        rw [← hended] at henough
        rw [runFrom_of_failure hstep hf] at h ⊢
        by_cases hend : Ended policy failures.length [t]
        · rw [if_pos (henough.mpr hend)] at h ⊢
          cases h
          refine ⟨[t], .last hstep hcrash hend, ?_, ?_, .refl u⟩
          · rw [hone]
            rfl
          · simpa using hexit
        · rw [if_neg (mt henough.mp hend)] at h ⊢
          have hlimit' : (failures ++ [f.quoting source]).length < failureLimit := by
            have hne := (not_or.mp (mt hended.mpr hend)).2
            omega
          obtain ⟨turns, hcourse, hfailures, hexited, hlead⟩ := ih hlimit' h
          rw [hlength] at hcourse
          have hresumes := Session.Resumes.record u (.recovered (f.quoting source).fault.code)
          refine ⟨t :: turns, .cons hstep hcrash hend hresumes ?_, ?_, ?_, ?_⟩
          · rw [hone]
            exact hcourse
          · rw [hfailures, Turn.failures_cons, hone]
            simp
          · simpa [hexit] using hexited
          · rw [Turn.lead_cons]
            exact (Turn.lead_resumes hresumes turns).trans hlead

end Program

/-! ## Stopping at the first failure, and proceeding -/

/-- What has been printed stays printed. -/
theorem keepsOutput : Respected fun s t => ∃ more, t.output = s.output ++ more where
  refl s := ⟨"", by simp⟩
  trans := by
    rintro s t u ⟨more, ht⟩ ⟨more', hu⟩
    exact ⟨more ++ more', by rw [hu, ht, String.append_assoc]⟩
  define s n v := ⟨"", by simp [Session.define]⟩
  assign _ := ⟨"", by simp⟩
  readLine s n := ⟨"", by simp [Session.readLine_output]⟩
  print s line := ⟨line ++ "\n", by simp [Session.print, String.append_assoc]⟩
  record s e := ⟨"", by simp [Session.record]⟩
  leave := by
    rintro s t ⟨more, ht⟩
    exact ⟨more, by rw [Session.pop_output, ht, Session.push_output]⟩
  drop := by
    rintro s t ⟨more, ht⟩
    exact ⟨more, by rw [ht, Session.push_output]⟩

namespace Program

variable {source : Option String} {limits : Limits} {p : List Stmt} {s : Session} {o : Outcome}

/-- **The run that stops at the first failure and the run that proceeds are the same up to there.**
The one has an outcome if the other has, with the first failure of the other if there is one; what
it prints comes first in what the other prints; and without failures nothing tells them apart. -/
theorem runFrom_abort (h : (runFrom .proceed source limits p [] s).1 = .ok o) :
    ∃ a, (runFrom .abort source limits p [] s).1 = .ok a ∧
      a.failures = o.failures.take 1 ∧
      (∃ more, (runFrom .proceed source limits p [] s).2.output =
        (runFrom .abort source limits p [] s).2.output ++ more) ∧
      (o.failures = [] →
        runFrom .abort source limits p [] s = runFrom .proceed source limits p [] s) := by
  induction p generalizing s with
  | nil =>
    cases h
    exact ⟨_, rfl, rfl, keepsOutput.refl s, fun _ => rfl⟩
  | cons stmt rest ih =>
    rcases hstep : execute limits.rounds limits.depth stmt s with ⟨t, _ | why⟩
    · rw [runFrom_of_none hstep] at h ⊢
      rw [runFrom_of_none hstep]
      exact ih h
    · rcases why.exit_or_crash_or_failure stmt with rfl | ⟨c, rfl⟩ | ⟨f, hf⟩
      · rw [runFrom_of_exit hstep] at h ⊢
        rw [runFrom_of_exit hstep]
        cases h
        exact ⟨_, rfl, rfl, keepsOutput.refl t, fun _ => rfl⟩
      · rw [runFrom_of_crash hstep] at h
        cases h
      · have hproceed : runFrom .proceed source limits (stmt :: rest) [] s =
            runFrom .proceed source limits rest [f.quoting source]
              (t.record (.recovered (f.quoting source).fault.code)) := runFrom_of_failure hstep hf
        have habort : runFrom .abort source limits (stmt :: rest) [] s =
            (.ok ⟨false, [f.quoting source]⟩, t) := runFrom_of_failure hstep hf
        rw [hproceed] at h ⊢
        rw [habort]
        have hlimit : [f.quoting source].length < failureLimit := by simp [failureLimit]
        obtain ⟨turns, -, hfailures, -⟩ := runFrom_course hlimit h
        refine ⟨_, rfl, ?_, ?_, ?_⟩
        · rw [hfailures]
          rfl
        · exact keepsOutput.trans (keepsOutput.record t _) (keepsOutput.runFrom _ _ _ _ _ _)
        · intro hnone
          rw [hfailures] at hnone
          cases hnone

/-- **The turns of a run.**  If the run of a program that proceeds after failures has an outcome,
then under either policy the program is executed statement by statement along a course; the outcome
lists one failure for each turn that failed, in order, is a success if there are none, and was an
exit if one of the turns was; and the run leaves what its last turn leaves.  So the run that stops
at the first failure prints a part of what the other prints, from its start on, reports the first of
the failures that the other reports, and is the same run if there are none. -/
theorem run_turns (p : Program) (settings : Settings) (source : Option String) (input : String)
    {o : Outcome}
    (h : (p.run limits { settings with policy := .proceed } source input).1 = .ok o) :
    (∀ policy, ∃ o' turns,
      (p.run limits { settings with policy } source input).1 = .ok o' ∧
      Course policy limits 0 p (.start settings input) turns ∧
      o'.failures = (Turn.failures turns).map (·.quoting source) ∧
      (o'.success = true ↔ o'.failures = []) ∧
      (o'.exited = true ↔ ∃ t ∈ turns, t.stopped = some .exit) ∧
      (Turn.lead (.start settings input) turns).Resumes
        (p.run limits { settings with policy } source input).2) ∧
    ∃ a, (p.run limits { settings with policy := .abort } source input).1 = .ok a ∧
      a.failures = o.failures.take 1 ∧
      (∃ more, (p.run limits { settings with policy := .proceed } source input).2.output =
        (p.run limits { settings with policy := .abort } source input).2.output ++ more) ∧
      (o.failures = [] → a = o ∧
        (p.run limits { settings with policy := .abort } source input).2.output =
          (p.run limits { settings with policy := .proceed } source input).2.output) := by
  obtain ⟨a, ha, hfirst, hprefix, hsame⟩ := runFrom_abort h
  refine ⟨fun policy => ?_, a, ha, hfirst, hprefix, fun hnone => ⟨?_, ?_⟩⟩
  · have hok : ∃ o', (p.run limits { settings with policy } source input).1 = .ok o' := by
      cases policy with
      | abort => exact ⟨a, ha⟩
      | proceed => exact ⟨o, h⟩
    obtain ⟨o', ho'⟩ := hok
    obtain ⟨turns, hcourse, hfailures, hexited, hlead⟩ := runFrom_course (by decide) ho'
    refine ⟨o', turns, ho', hcourse, ?_, ?_, hexited, hlead⟩
    · rw [hfailures, List.nil_append]
    · rw [Outcome.success, List.isEmpty_iff]
  · have hruns := (congrArg Prod.fst (hsame hnone)).symm.trans ha
    exact Except.ok.inj (hruns.symm.trans h)
  · exact congrArg (·.2.output) (hsame hnone)

/-- One failure between two lines, and a line after an exit. -/
def lossSample : Program :=
  [.speak (.literal (.text "one") none) none, .speak (.name "lost" none) none,
    .speak (.literal (.text "two") none) none, .exit none,
    .speak (.literal (.text "three") none) none]

theorem run_turns_lossSample :
    (lossSample.run .small { ({} : Settings) with policy := .proceed } none "").1 =
        .ok ⟨true, [⟨.unbound "lost", none, none⟩]⟩ ∧
      ∃ a, (lossSample.run .small { ({} : Settings) with policy := .abort } none "").1 = .ok a ∧
        a.failures = [⟨.unbound "lost", none, none⟩] := by
  have hrun : (lossSample.run .small { ({} : Settings) with policy := .proceed } none "").1 =
      .ok ⟨true, [⟨.unbound "lost", none, none⟩]⟩ := rfl
  obtain ⟨a, ha, hfailures, -⟩ := (run_turns lossSample {} none "" hrun).2
  exact ⟨hrun, a, ha, hfailures⟩

end Program

end DialogueScript
