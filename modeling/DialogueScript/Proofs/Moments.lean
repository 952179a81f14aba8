import DialogueScript.Proofs.Runs
import DialogueScript.Proofs.Stops

/-!
# The moments of a run

A run comes to a statement, is then busy with what is inside it, and at last is done with it.  The
moments of a run are these in their order, each with the session there.

* `Moment` — a statement begins or is done; `Moment.unread` — the same without the input that is
  left;
* `moments`, `Program.moments` — the moments of one statement, and of a whole run;
* `reads` — how many input statements have begun; `upTo` — what happens before one too many of them
  has;
* `mem_moments_iff`, `Program.mem_moments_iff` — the statements that begin are those to which the
  execution comes;
* `reads_append`, `upTo_append`, `upTo_of_le`, `reads_upTo` — moments one after the other.
-/

namespace DialogueScript

/-- The session without the lines it can still read. -/
def Session.unread (s : Session) : Session := { s with input := [] }

/-- A statement begins, or a run is done with it, completed or not. -/
inductive Moment where
  | before (stmt : Stmt) (s : Session)
  | after (stmt : Stmt) (s : Session)

namespace Moment

def session : Moment → Session
  | before _ s | after _ s => s

/-- The moment without the lines that can still be read. -/
def unread : Moment → Moment
  | before stmt s => before stmt s.unread
  | after stmt s => after stmt s.unread

/-- An input statement begins. -/
def isRead : Moment → Bool
  | before (.input _ _) _ => true
  | _ => false

end Moment

/-- How many input statements begin. -/
def reads (m : List Moment) : Nat := m.countP Moment.isRead

/-- What happens up to the moment when one input statement more than `k` begins, and that moment. -/
def upTo : Nat → List Moment → List Moment
  | _, [] => []
  | 0, x :: m => if x.isRead then [x] else x :: upTo 0 m
  | k + 1, x :: m => if x.isRead then x :: upTo k m else x :: upTo (k + 1) m

/-! ## What a run goes through -/

/-- Goes on after a step that has completed. -/
def Progress.next (p : Progress) (more : Session → List Moment) : List Moment :=
  match p with
  | (s, none) => more s
  | (_, some _) => []

/-- The step after a step, if that has completed. -/
def Progress.andThen (p : Progress) (go : Session → Progress) : Progress :=
  match p with
  | (s, none) => go s
  | (s, some why) => (s, some why)

/-- The moments of statements in a row. -/
def momentsAll (step : Stmt → Session → Progress) (moments : Stmt → Session → List Moment) :
    List Stmt → Session → List Moment
  | [], _ => []
  | stmt :: rest, s => moments stmt s ++ Progress.next (step stmt s) (momentsAll step moments rest)

/-- The moments of the rounds of a loop. -/
def momentsLoop (step : Session → Progress) (moments : Session → List Moment) :
    Nat → Session → List Moment
  | 0, _ => []
  | rounds + 1, s => moments s ++ Progress.next (step s) (momentsLoop step moments rounds)

/-- The moments inside a statement, from the moments of statements one level deeper. -/
def momentsInside (rounds depth : Nat) (moments : Stmt → Session → List Moment) (stmt : Stmt)
    (s : Session) : List Moment :=
  match stmt with
  | .block body _ => momentsAll (execute rounds depth) moments body (s.push "block")
  | .branch c body _ =>
    match evaluate depth c s with
    | (.ok v, t) =>
      match truth v c.span with
      | .ok true => moments body t
      | _ => []
    | _ => []
  | .loop body _ => momentsLoop (execute rounds depth body) (moments body) rounds s
  | _ => []

/-- The moments of one statement inside `depth` levels. -/
def moments (rounds : Nat) : Nat → Stmt → Session → List Moment
  | 0, _, _ => []
  | depth + 1, stmt, s =>
    .before stmt s :: momentsInside rounds depth (moments rounds depth) stmt s ++
      [.after stmt (execute rounds (depth + 1) stmt s).1]

/-- The moments of a run in the middle of a program. -/
def Program.momentsFrom (policy : ErrorPolicy) (source : Option String) (limits : Limits) :
    List Stmt → List Failure → Session → List Moment
  | [], _, _ => []
  | stmt :: rest, failures, s =>
    moments limits.rounds limits.depth stmt s ++
      match execute limits.rounds limits.depth stmt s with
      | (t, none) => momentsFrom policy source limits rest failures t
      | (t, some why) =>
        match why.failure? stmt with
        | none => []
        | some f =>
          let failures := failures ++ [f.quoting source]
          if enough policy failures then []
          else momentsFrom policy source limits rest failures
            (t.record (.recovered (f.quoting source).fault.code))

/-- The moments of a whole run. -/
def Program.moments (p : Program) (limits : Limits) (settings : Settings) (source : Option String)
    (input : String) : List Moment :=
  momentsFrom settings.policy source limits p [] (.start settings input)

theorem reads_append (a b : List Moment) : reads (a ++ b) = reads a + reads b :=
  List.countP_append

theorem reads_cons_of_read {x : Moment} (hx : x.isRead = true) (m : List Moment) :
    reads (x :: m) = reads m + 1 := List.countP_cons_of_pos hx

theorem reads_cons_of_other {x : Moment} (hx : x.isRead = false) (m : List Moment) :
    reads (x :: m) = reads m := List.countP_cons_of_neg (Bool.eq_false_iff.mp hx)

theorem isRead_unread (x : Moment) : x.unread.isRead = x.isRead := by
  cases x with
  | before stmt s => cases stmt <;> rfl
  | after stmt s => rfl

theorem reads_map_unread (m : List Moment) : reads (m.map Moment.unread) = reads m := by
  unfold reads
  rw [List.countP_map]
  exact List.countP_congr fun x _ => by rw [Function.comp_apply, isRead_unread]

theorem upTo_cons_of_other {x : Moment} (hx : x.isRead = false) (k : Nat) (m : List Moment) :
    upTo k (x :: m) = x :: upTo k m := by
  cases k <;> simp [upTo, hx]

theorem upTo_append (k : Nat) (a b : List Moment) :
    upTo k (a ++ b) = if reads a ≤ k then a ++ upTo (k - reads a) b else upTo k a := by
  induction a generalizing k with
  | nil => simp [reads]
  | cons x a ih =>
    cases hx : x.isRead with
    | false =>
      rw [List.cons_append, upTo_cons_of_other hx, ih, upTo_cons_of_other hx,
        reads_cons_of_other hx]
      split <;> rfl
    | true =>
      rw [reads_cons_of_read hx]
      cases k with
      | zero => simp [upTo, hx]
      | succ k =>
        simp only [List.cons_append, upTo, hx, if_true]
        rw [ih, Nat.add_sub_add_right]
        simp only [Nat.add_le_add_iff_right]
        split <;> rfl

theorem upTo_of_le {k : Nat} {m : List Moment} (h : reads m ≤ k) : upTo k m = m := by
  have happend := upTo_append k m []
  rw [List.append_nil, if_pos h] at happend
  rw [happend]
  cases k - reads m <;> simp [upTo]

/-- No more than one too many. -/
theorem reads_upTo (k : Nat) (m : List Moment) : reads (upTo k m) = min (reads m) (k + 1) := by
  induction m generalizing k with
  | nil => simp [upTo, reads]
  | cons x m ih =>
    cases hx : x.isRead with
    | false => rw [upTo_cons_of_other hx, reads_cons_of_other hx, reads_cons_of_other hx, ih]
    | true =>
      rw [reads_cons_of_read hx]
      cases k with
      | zero =>
        simp only [upTo, hx, if_true]
        rw [reads_cons_of_read hx]
        simp [reads]
      | succ k =>
        simp only [upTo, hx, if_true]
        rw [reads_cons_of_read hx, ih]
        omega

/-! ## Which statements begin -/

theorem mem_momentsAll_iff {step : Stmt → Session → Progress}
    {inner : Stmt → Session → List Moment} {p : List Stmt} {s : Session} {x : Moment} :
    x ∈ momentsAll step inner p s ↔
      ∃ front stmt back t, p = front ++ stmt :: back ∧ runAll step front s = (t, none) ∧
        x ∈ inner stmt t := by
  induction p generalizing s with
  | nil => simp [momentsAll]
  | cons stmt rest ih =>
    rw [momentsAll, List.mem_append]
    constructor
    · rintro (hx | hx)
      · exact ⟨[], stmt, rest, s, rfl, rfl, hx⟩
      · rcases hstep : step stmt s with ⟨t, _ | why⟩
        · rw [hstep] at hx
          obtain ⟨front, stmt', back, u, rfl, hfront, hx⟩ := ih.mp hx
          exact ⟨stmt :: front, stmt', back, u, rfl, by rw [runAll, hstep]; exact hfront, hx⟩
        · rw [hstep] at hx
          cases hx
    · rintro ⟨front, stmt', back, u, hp, hfront, hx⟩
      cases front with
      | nil =>
        cases hp
        cases hfront
        exact .inl hx
      | cons first front =>
        cases hp
        rw [runAll] at hfront
        rcases hstep : step stmt s with ⟨t, _ | why⟩
        · rw [hstep] at hfront
          exact .inr (ih.mpr ⟨front, stmt', back, u, rfl, hfront, hx⟩)
        · rw [hstep] at hfront
          cases hfront

theorem mem_momentsLoop_iff {step : Session → Progress} {inner : Session → List Moment}
    {rounds : Nat} {s : Session} {x : Moment} :
    x ∈ momentsLoop step inner rounds s ↔
      ∃ n t, n < rounds ∧ Rounds step n s t ∧ x ∈ inner t := by
  induction rounds generalizing s with
  | zero => simp [momentsLoop]
  | succ rounds ih =>
    rw [momentsLoop, List.mem_append]
    constructor
    · rintro (hx | hx)
      · exact ⟨0, s, Nat.succ_pos _, .zero s, hx⟩
      · rcases hstep : step s with ⟨t, _ | why⟩
        · rw [hstep] at hx
          obtain ⟨n, u, hn, hrounds, hx⟩ := ih.mp hx
          exact ⟨n + 1, u, Nat.succ_lt_succ hn, .succ hstep hrounds, hx⟩
        · rw [hstep] at hx
          cases hx
    · rintro ⟨n, u, hn, hrounds, hx⟩
      cases hrounds with
      | zero => exact .inl hx
      | succ hstep hrest =>
        rw [hstep]
        exact .inr (ih.mpr ⟨_, u, Nat.lt_of_succ_lt_succ hn, hrest, hx⟩)

/-- **The statements that begin are those to which the execution comes.** -/
theorem mem_moments_iff {rounds depth : Nat} {stmt stmt' : Stmt} {s t : Session} :
    .before stmt' t ∈ moments rounds depth stmt s ↔
      ∃ depth', Comes rounds depth stmt s (depth' + 1) stmt' t := by
  induction depth generalizing stmt s with
  | zero =>
    constructor
    · intro h
      cases h
    · rintro ⟨depth', h⟩
      cases h
  | succ depth ih =>
    have hhere : Moment.before stmt' t ∈ moments rounds (depth + 1) stmt s ↔
        (stmt' = stmt ∧ t = s) ∨
          .before stmt' t ∈ momentsInside rounds depth (moments rounds depth) stmt s := by
      simp [moments]
    rw [hhere]
    constructor
    · rintro (⟨rfl, rfl⟩ | h)
      · exact ⟨depth, .here _ _ _⟩
      · cases stmt with
        | block body span =>
          obtain ⟨front, first, back, u, rfl, hfront, h⟩ := mem_momentsAll_iff.mp h
          obtain ⟨depth', h⟩ := ih.mp h
          exact ⟨depth', .block hfront h⟩
        | branch c body span =>
          rcases hc : evaluate depth c s with ⟨why | v, u⟩
          · simp only [momentsInside, hc] at h
            cases h
          · rcases htruth : truth v c.span with why | (_ | _)
            · simp only [momentsInside, hc, htruth] at h
              cases h
            · simp only [momentsInside, hc, htruth] at h
              cases h
            · simp only [momentsInside, hc, htruth] at h
              obtain ⟨depth', h⟩ := ih.mp h
              exact ⟨depth', .branch hc htruth h⟩
        | loop body span =>
          obtain ⟨n, u, hn, hrounds, h⟩ := mem_momentsLoop_iff.mp h
          obtain ⟨depth', h⟩ := ih.mp h
          exact ⟨depth', .loop hn hrounds h⟩
        | _ => cases h
    · rintro ⟨depth', h⟩
      cases h with
      | here => exact .inl ⟨rfl, rfl⟩
      | block hfront h =>
        exact .inr (mem_momentsAll_iff.mpr ⟨_, _, _, _, rfl, hfront, ih.mpr ⟨depth', h⟩⟩)
      | branch hc htrue h =>
        refine .inr ?_
        simp only [momentsInside, hc, htrue]
        exact ih.mpr ⟨depth', h⟩
      | loop hn hrounds h =>
        exact .inr (mem_momentsLoop_iff.mpr ⟨_, _, hn, hrounds, ih.mpr ⟨depth', h⟩⟩)

namespace Program

variable {policy : ErrorPolicy} {source : Option String} {limits : Limits} {stmt : Stmt}
  {rest : List Stmt} {failures : List Failure} {s t : Session} {why : Stop}

theorem momentsFrom_of_none (h : execute limits.rounds limits.depth stmt s = (t, none)) :
    momentsFrom policy source limits (stmt :: rest) failures s =
      DialogueScript.moments limits.rounds limits.depth stmt s ++
        momentsFrom policy source limits rest failures t := by
  rw [momentsFrom, h]

/-- An exit and a crash end the run. -/
theorem momentsFrom_of_end (h : execute limits.rounds limits.depth stmt s = (t, some why))
    (hwhy : why.failure? stmt = none) :
    momentsFrom policy source limits (stmt :: rest) failures s =
      DialogueScript.moments limits.rounds limits.depth stmt s := by
  rw [momentsFrom, h]
  dsimp only
  rw [hwhy]
  exact List.append_nil _

theorem momentsFrom_of_failure {f : Failure}
    (h : execute limits.rounds limits.depth stmt s = (t, some why))
    (hf : why.failure? stmt = some f) :
    momentsFrom policy source limits (stmt :: rest) failures s =
      DialogueScript.moments limits.rounds limits.depth stmt s ++
        if enough policy (failures ++ [f.quoting source]) then []
        else momentsFrom policy source limits rest (failures ++ [f.quoting source])
          (t.record (.recovered (f.quoting source).fault.code)) := by
  rw [momentsFrom, h]
  dsimp only
  rw [hf]

theorem mem_momentsFrom_iff {p : List Stmt} :
    .before stmt t ∈ momentsFrom policy source limits p failures s ↔
      ∃ root u depth, Executes policy source limits p failures s root u ∧
        Comes limits.rounds limits.depth root u (depth + 1) stmt t := by
  induction p generalizing failures s with
  | nil =>
    constructor
    · intro h
      cases h
    · rintro ⟨root, u, depth, h, -⟩
      cases h
  | cons first rest ih =>
    constructor
    · intro h
      rcases hstep : execute limits.rounds limits.depth first s with ⟨u, _ | why⟩
      · rw [momentsFrom_of_none hstep, List.mem_append, mem_moments_iff] at h
        rcases h with ⟨depth, h⟩ | h
        · exact ⟨first, s, depth, .here _ _ _ _, h⟩
        · obtain ⟨root, v, depth, hexec, h⟩ := ih.mp h
          exact ⟨root, v, depth, .completed hstep hexec, h⟩
      · cases hf : why.failure? first with
        | none =>
          rw [momentsFrom_of_end hstep hf, mem_moments_iff] at h
          obtain ⟨depth, h⟩ := h
          exact ⟨first, s, depth, .here _ _ _ _, h⟩
        | some f =>
          rw [momentsFrom_of_failure hstep hf, List.mem_append, mem_moments_iff] at h
          rcases h with ⟨depth, h⟩ | h
          · exact ⟨first, s, depth, .here _ _ _ _, h⟩
          · split at h
            · cases h
            · rename_i hgo
              obtain ⟨root, v, depth, hexec, h⟩ := ih.mp h
              exact ⟨root, v, depth, .failed hstep hf (Bool.eq_false_iff.mpr hgo) hexec, h⟩
    · rintro ⟨root, v, depth, hexec, h⟩
      cases hexec with
      | here => exact List.mem_append_left _ (mem_moments_iff.mpr ⟨depth, h⟩)
      | completed hstep hexec =>
        rw [momentsFrom_of_none hstep]
        exact List.mem_append_right _ (ih.mpr ⟨root, v, depth, hexec, h⟩)
      | failed hstep hf hgo hexec =>
        rw [momentsFrom_of_failure hstep hf, hgo]
        exact List.mem_append_right _ (ih.mpr ⟨root, v, depth, hexec, h⟩)

/-- **The statements that begin in a run are those to which its executions come.** -/
theorem mem_moments_iff {p : Program} {settings : Settings} {input : String} :
    .before stmt t ∈ p.moments limits settings source input ↔
      ∃ root u depth,
        Executes settings.policy source limits p [] (.start settings input) root u ∧
          Comes limits.rounds limits.depth root u (depth + 1) stmt t :=
  mem_momentsFrom_iff

end Program

end DialogueScript
