import DialogueScript.Proofs.Evaluations
import DialogueScript.Run.Execute

/-!
# How executions stop

* `runAll_stop_iff`, `repeatStep_stop_iff`, `inFrame_stop` — statements in a row stop where one of
  them does, a loop in one of its rounds or after all of them, a block where its body does;
* `Comes` — the statements that the execution of a statement comes to, each with the session there;
* `StopsAt` — the ways in which a statement stops by itself;
* `execute_stop_iff` — an execution stops exactly when it comes to a statement that stops by itself,
  and for that reason.
-/

namespace DialogueScript

/-- So many rounds of a loop, all of them completed. -/
inductive Rounds (step : Session → Progress) : Nat → Session → Session → Prop
  | zero (s : Session) : Rounds step 0 s s
  | succ {n : Nat} {s t u : Session} (h : step s = (t, none)) (hrest : Rounds step n t u) :
      Rounds step (n + 1) s u

theorem runAll_stop_iff {step : Stmt → Session → Progress} {p : List Stmt} {s : Session}
    {why : Stop} : (runAll step p s).2 = some why ↔
      ∃ before stmt after t, p = before ++ stmt :: after ∧ runAll step before s = (t, none) ∧
        (step stmt t).2 = some why := by
  induction p generalizing s with
  | nil => simp [runAll]
  | cons stmt rest ih =>
    rw [runAll]
    rcases hstep : step stmt s with ⟨t, _ | why'⟩
    · dsimp only
      rw [ih]
      constructor
      · rintro ⟨before, stmt', after, u, rfl, hbefore, hwhy⟩
        exact ⟨stmt :: before, stmt', after, u, rfl, by rw [runAll, hstep]; exact hbefore, hwhy⟩
      · rintro ⟨before, stmt', after, u, hp, hbefore, hwhy⟩
        cases before with
        | nil =>
          cases hp
          cases hbefore
          rw [hstep] at hwhy
          cases hwhy
        | cons first before =>
          cases hp
          rw [runAll, hstep] at hbefore
          exact ⟨before, stmt', after, u, rfl, hbefore, hwhy⟩
    · dsimp only
      constructor
      · intro hwhy
        exact ⟨[], stmt, rest, s, rfl, rfl, by rw [hstep]; exact hwhy⟩
      · rintro ⟨before, stmt', after, u, hp, hbefore, hwhy⟩
        cases before with
        | nil =>
          cases hp
          cases hbefore
          rw [hstep] at hwhy
          exact hwhy
        | cons first before =>
          cases hp
          rw [runAll, hstep] at hbefore
          cases hbefore

theorem repeatStep_stop_iff {step : Session → Progress} {rounds : Nat} {s : Session} {why : Stop} :
    (repeatStep step rounds s).2 = some why ↔
      (why = .crash .endless ∧ ∃ t, Rounds step rounds s t) ∨
        ∃ n t, n < rounds ∧ Rounds step n s t ∧ (step t).2 = some why := by
  induction rounds generalizing s with
  | zero =>
    simp only [repeatStep, Option.some.injEq, Nat.not_lt_zero, false_and, exists_false, or_false]
    exact ⟨fun h => ⟨h.symm, s, .zero s⟩, fun h => h.1.symm⟩
  | succ rounds ih =>
    rw [repeatStep]
    rcases hstep : step s with ⟨t, _ | why'⟩
    · dsimp only
      rw [ih]
      constructor
      · rintro (⟨hwhy, u, hu⟩ | ⟨n, u, hn, hu, hwhy⟩)
        · exact .inl ⟨hwhy, u, .succ hstep hu⟩
        · exact .inr ⟨n + 1, u, Nat.succ_lt_succ hn, .succ hstep hu, hwhy⟩
      · rintro (⟨hwhy, u, hu⟩ | ⟨n, u, hn, hu, hwhy⟩)
        · cases hu with
          | succ h hrest =>
            rw [hstep] at h
            cases h
            exact .inl ⟨hwhy, u, hrest⟩
        · cases hu with
          | zero =>
            rw [hstep] at hwhy
            cases hwhy
          | succ h hrest =>
            rw [hstep] at h
            cases h
            exact .inr ⟨_, u, Nat.lt_of_succ_lt_succ hn, hrest, hwhy⟩
    · dsimp only
      constructor
      · intro hwhy
        exact .inr ⟨0, s, Nat.succ_pos _, .zero s, by rw [hstep]; exact hwhy⟩
      · rintro (⟨hwhy, u, hu⟩ | ⟨n, u, hn, hu, hwhy⟩)
        · cases hu with
          | succ h hrest =>
            rw [hstep] at h
            cases h
        · cases hu with
          | zero =>
            rw [hstep] at hwhy
            exact hwhy
          | succ h hrest =>
            rw [hstep] at h
            cases h

theorem inFrame_stop (step : Session → Progress) (s : Session) :
    (inFrame step s).2 = (step (s.push "block")).2 := by
  unfold inFrame
  rcases step (s.push "block") with ⟨t, _ | why⟩
  · rfl
  · rfl

/-- Executing a statement in a session comes to another statement, inside fewer levels and in a
later session. -/
inductive Comes (rounds : Nat) : Nat → Stmt → Session → Nat → Stmt → Session → Prop
  | here (depth : Nat) (stmt : Stmt) (s : Session) : Comes rounds depth stmt s depth stmt s
  | block {depth depth' : Nat} {before after : List Stmt} {stmt stmt' : Stmt} {span : Option Span}
      {s t u : Session}
      (hbefore : runAll (execute rounds depth) before (s.push "block") = (t, none))
      (h : Comes rounds depth stmt t depth' stmt' u) :
      Comes rounds (depth + 1) (.block (before ++ stmt :: after) span) s depth' stmt' u
  | branch {depth depth' : Nat} {c : Expr} {body stmt' : Stmt} {span : Option Span}
      {s t u : Session} {v : Value} (hc : evaluate depth c s = (.ok v, t))
      (htrue : truth v c.span = .ok true) (h : Comes rounds depth body t depth' stmt' u) :
      Comes rounds (depth + 1) (.branch c body span) s depth' stmt' u
  | loop {depth depth' n : Nat} {body stmt' : Stmt} {span : Option Span} {s t u : Session}
      (hn : n < rounds) (hrounds : Rounds (execute rounds depth body) n s t)
      (h : Comes rounds depth body t depth' stmt' u) :
      Comes rounds (depth + 1) (.loop body span) s depth' stmt' u

/-- A statement stops, but not because of a statement inside it. -/
inductive StopsAt (rounds : Nat) : Nat → Stmt → Session → Stop → Prop
  | tooDeep (stmt : Stmt) (s : Session) : StopsAt rounds 0 stmt s .tooDeep
  | express {depth : Nat} {e : Expr} {span : Option Span} {s : Session} {why : Stop}
      (h : (evaluate depth e s).1 = .error why) : StopsAt rounds (depth + 1) (.express e span) s why
  | declare {depth : Nat} {n : String} {e : Expr} {span : Option Span} {s : Session} {why : Stop}
      (h : valueOf s.env.lookup depth e = .error why) :
      StopsAt rounds (depth + 1) (.declare n e span) s why
  | speak {depth : Nat} {e : Expr} {span : Option Span} {s : Session} {why : Stop}
      (h : valueOf s.env.lookup depth e = .error why) :
      StopsAt rounds (depth + 1) (.speak e span) s why
  | condition {depth : Nat} {c : Expr} {body : Stmt} {span : Option Span} {s : Session} {why : Stop}
      (h : (evaluate depth c s).1 = .error why) :
      StopsAt rounds (depth + 1) (.branch c body span) s why
  | truth {depth : Nat} {c : Expr} {body : Stmt} {span : Option Span} {s t : Session} {v : Value}
      {why : Stop} (hc : evaluate depth c s = (.ok v, t)) (h : truth v c.span = .error why) :
      StopsAt rounds (depth + 1) (.branch c body span) s why
  | endless {depth : Nat} {body : Stmt} {span : Option Span} {s t : Session}
      (h : Rounds (execute rounds depth body) rounds s t) :
      StopsAt rounds (depth + 1) (.loop body span) s (.crash .endless)
  | exit (depth : Nat) (span : Option Span) (s : Session) :
      StopsAt rounds (depth + 1) (.exit span) s .exit
  | stray (depth : Nat) (label : String) (fields : List String) (s : Session) :
      StopsAt rounds (depth + 1) (.stray label fields) s (.crash (.strayStatement label))

/-- What stops a statement that is come to stops the statement it all began with. -/
theorem Comes.stop {rounds depth depth' : Nat} {stmt stmt' : Stmt} {s t : Session}
    (h : Comes rounds depth stmt s depth' stmt' t) {why : Stop}
    (hwhy : (execute rounds depth' stmt' t).2 = some why) :
    (execute rounds depth stmt s).2 = some why := by
  induction h with
  | here => exact hwhy
  | block hbefore _ ih =>
    rw [execute, inFrame_stop, runAll_stop_iff]
    exact ⟨_, _, _, _, rfl, hbefore, ih hwhy⟩
  | branch hc htrue _ ih =>
    rw [execute, hc]
    dsimp only
    rw [htrue]
    exact ih hwhy
  | loop hn hrounds _ ih =>
    rw [execute, repeatStep_stop_iff]
    exact .inr ⟨_, _, hn, hrounds, ih hwhy⟩

theorem StopsAt.stop {rounds depth : Nat} {stmt : Stmt} {s : Session} {why : Stop}
    (h : StopsAt rounds depth stmt s why) : (execute rounds depth stmt s).2 = some why := by
  cases h with
  | tooDeep => rfl
  | @express depth e span _ _ h =>
    rw [execute]
    rcases he : evaluate depth e s with ⟨r, t⟩
    rw [he] at h
    dsimp only at h
    rw [h]
  | declare h => simp only [execute, h]
  | speak h =>
    rw [execute, displayOf, h]
    rfl
  | @condition depth c body span _ _ h =>
    rw [execute]
    rcases he : evaluate depth c s with ⟨r, t⟩
    rw [he] at h
    dsimp only at h
    rw [h]
  | truth hc h => simp only [execute, hc, h]
  | endless h =>
    rw [execute, repeatStep_stop_iff]
    exact .inl ⟨rfl, _, h⟩
  | exit => rfl
  | stray => rfl

/-- **How an execution stops.**  It comes to a statement that stops by itself. -/
theorem execute_stop_iff {rounds depth : Nat} {stmt : Stmt} {s : Session} {why : Stop} :
    (execute rounds depth stmt s).2 = some why ↔
      ∃ depth' stmt' t, Comes rounds depth stmt s depth' stmt' t ∧
        StopsAt rounds depth' stmt' t why := by
  refine ⟨fun h => ?_, fun ⟨depth', stmt', t, hcomes, hat⟩ => hcomes.stop hat.stop⟩
  induction depth generalizing stmt s with
  | zero =>
    cases h
    exact ⟨_, _, _, .here _ _ _, .tooDeep _ _⟩
  | succ depth ih =>
    cases stmt with
    | block body span =>
      rw [execute, inFrame_stop, runAll_stop_iff] at h
      obtain ⟨before, stmt, after, t, rfl, hbefore, hwhy⟩ := h
      obtain ⟨depth', stmt', u, hcomes, hat⟩ := ih hwhy
      exact ⟨depth', stmt', u, .block hbefore hcomes, hat⟩
    | express e span =>
      refine ⟨_, _, _, .here _ _ _, .express ?_⟩
      rw [execute] at h
      rcases he : evaluate depth e s with ⟨why' | v, t⟩
      · rw [he] at h
        cases h
        rfl
      · rw [he] at h
        cases h
    | declare n e span =>
      refine ⟨_, _, _, .here _ _ _, .declare ?_⟩
      rw [execute] at h
      cases he : valueOf s.env.lookup depth e with
      | error why' =>
        rw [he] at h
        cases h
        rfl
      | ok v =>
        rw [he] at h
        cases h
    | speak e span =>
      refine ⟨_, _, _, .here _ _ _, .speak ?_⟩
      rw [execute, displayOf] at h
      cases he : valueOf s.env.lookup depth e with
      | error why' =>
        rw [he] at h
        cases h
        rfl
      | ok v =>
        rw [he] at h
        cases h
    | input n span => cases h
    | branch c body span =>
      rw [execute] at h
      rcases he : evaluate depth c s with ⟨why' | v, t⟩
      · rw [he] at h
        cases h
        exact ⟨_, _, _, .here _ _ _, .condition (by rw [he])⟩
      · rw [he] at h
        dsimp only at h
        rcases htruth : truth v c.span with why' | (_ | _)
        · rw [htruth] at h
          cases h
          exact ⟨_, _, _, .here _ _ _, .truth he htruth⟩
        · rw [htruth] at h
          cases h
        · rw [htruth] at h
          obtain ⟨depth', stmt', u, hcomes, hat⟩ := ih h
          exact ⟨depth', stmt', u, .branch he htruth hcomes, hat⟩
    | loop body span =>
      rw [execute, repeatStep_stop_iff] at h
      rcases h with ⟨rfl, t, ht⟩ | ⟨n, t, hn, ht, hwhy⟩
      · exact ⟨_, _, _, .here _ _ _, .endless ht⟩
      · obtain ⟨depth', stmt', u, hcomes, hat⟩ := ih hwhy
        exact ⟨depth', stmt', u, .loop hn ht hcomes, hat⟩
    | exit span =>
      cases h
      exact ⟨_, _, _, .here _ _ _, .exit _ _ _⟩
    | stray label fields =>
      cases h
      exact ⟨_, _, _, .here _ _ _, .stray _ _ _ _⟩

end DialogueScript
