import DialogueScript.Proofs.Frames
import DialogueScript.Proofs.Runs

/-!
# What every execution respects

A relation between sessions that every step of a run respects is respected by whole runs: one
induction over statements, blocks and loops for all such facts.

* `Expr.targets`, `Stmt.targets` — the names that are assigned somewhere in a tree;
* `RespectedOn` — the steps: declarations, assignments to names of a kind, input, output, records,
  and the two ways to leave a block; `Respected` — the same with assignments to all names;
* `RespectedOn.execute`, `RespectedOn.runFrom` — statements and programs whose targets are of the
  kind; `Respected.execute`, `Respected.runFrom` — all of them;
* `keepsBelow` — with merging scopes, an execution changes no frame but the innermost one;
* `keepsModes` — how scopes and values are treated never changes;
* `keepsProper` — no frame ever binds a name twice, or a value of another kind than is kept.
-/

namespace DialogueScript

/-- The names that are assigned somewhere in an expression. -/
def Expr.targets : Expr → List String
  | .assign n v _ => n :: v.targets
  | .binary l _ r _ => l.targets ++ r.targets
  | .literal _ _ | .name _ _ | .stray _ _ => []

mutual

/-- The names that are assigned somewhere in a statement. -/
def Stmt.targets : Stmt → List String
  | .block body _ => Stmt.targetsAll body
  | .express e _ | .speak e _ | .declare _ e _ => e.targets
  | .branch c body _ => c.targets ++ body.targets
  | .loop body _ => body.targets
  | .input _ _ | .exit _ | .stray _ _ => []

def Stmt.targetsAll : List Stmt → List String
  | [] => []
  | stmt :: rest => stmt.targets ++ Stmt.targetsAll rest

end

theorem Stmt.mem_targetsAll {p : List Stmt} {n : String} :
    n ∈ Stmt.targetsAll p ↔ ∃ stmt ∈ p, n ∈ stmt.targets := by
  induction p with
  | nil => simp [Stmt.targetsAll]
  | cons stmt rest ih => simp [Stmt.targetsAll, ih]

/-- A relation between the session before and after that holds of all steps, if only names that may
be assigned are. -/
structure RespectedOn (may : String → Prop) (R : Session → Session → Prop) : Prop where
  refl : ∀ s, R s s
  trans : ∀ {s t u}, R s t → R t u → R s u
  define : ∀ s n v, R s (s.define n v)
  assign : ∀ {s n v env}, may n → s.env.assign? n v = some env → R s { s with env }
  readLine : ∀ s n, R s (s.readLine n)
  print : ∀ s line, R s (s.print line)
  record : ∀ s e, R s (s.record e)
  /-- A block that completes. -/
  leave : ∀ {s t}, R (s.push "block") t → R s t.pop
  /-- A block that stops. -/
  drop : ∀ {s t}, R (s.push "block") t → R s { t with env := t.env.unwindTo s.env.depth }

namespace RespectedOn

variable {may : String → Prop} {R : Session → Session → Prop} (hR : RespectedOn may R)

include hR

theorem evaluate (depth : Nat) {e : Expr} (he : ∀ n ∈ e.targets, may n) (s : Session) :
    R s (DialogueScript.evaluate depth e s).2 := by
  unfold DialogueScript.evaluate
  split
  · split
    · exact hR.refl s
    · split
      · rename_i hassign
        exact hR.assign (he _ List.mem_cons_self) hassign
      · exact hR.refl s
  · exact hR.refl s

theorem runAll {step : Stmt → Session → Progress} {p : List Stmt}
    (hstep : ∀ stmt ∈ p, ∀ s, R s (step stmt s).1) (s : Session) :
    R s (DialogueScript.runAll step p s).1 := by
  induction p generalizing s with
  | nil => exact hR.refl s
  | cons stmt rest ih =>
    have h := hstep stmt List.mem_cons_self s
    have hrest : ∀ t, R t (DialogueScript.runAll step rest t).1 :=
      ih fun stmt hstmt => hstep stmt (List.mem_cons_of_mem _ hstmt)
    unfold DialogueScript.runAll
    split
    · rename_i t heq
      rw [heq] at h
      exact hR.trans h (hrest t)
    · rename_i t why heq
      rwa [heq] at h

theorem repeatStep {step : Session → Progress} (hstep : ∀ s, R s (step s).1) (rounds : Nat)
    (s : Session) : R s (DialogueScript.repeatStep step rounds s).1 := by
  induction rounds generalizing s with
  | zero => exact hR.refl s
  | succ rounds ih =>
    have h := hstep s
    unfold DialogueScript.repeatStep
    split
    · rename_i t heq
      rw [heq] at h
      exact hR.trans h (ih t)
    · rename_i t why heq
      rwa [heq] at h

theorem inFrame {step : Session → Progress} (hstep : ∀ s, R s (step s).1) (s : Session) :
    R s (DialogueScript.inFrame step s).1 := by
  have h := hstep (s.push "block")
  unfold DialogueScript.inFrame
  split
  · rename_i t heq
    rw [heq] at h
    exact hR.leave h
  · rename_i t why heq
    rw [heq] at h
    exact hR.drop h

theorem execute (rounds depth : Nat) {stmt : Stmt} (hstmt : ∀ n ∈ stmt.targets, may n)
    (s : Session) : R s (DialogueScript.execute rounds depth stmt s).1 := by
  induction depth generalizing stmt s with
  | zero => exact hR.refl s
  | succ depth ih =>
    unfold DialogueScript.execute
    cases stmt with
    | block body span =>
      have hbody : ∀ stmt ∈ body, ∀ s, R s (DialogueScript.execute rounds depth stmt s).1 :=
        fun stmt hmem => ih fun n hn => hstmt n (Stmt.mem_targetsAll.mpr ⟨stmt, hmem, hn⟩)
      exact hR.inFrame (hR.runAll hbody) s
    | express e span =>
      have h := hR.evaluate depth hstmt s
      dsimp only
      split
      · rename_i heq
        rwa [heq] at h
      · rename_i heq
        rwa [heq] at h
    | declare n e span =>
      dsimp only
      split
      · exact hR.define s n _
      · exact hR.refl s
    | speak e span =>
      dsimp only
      split
      · exact hR.print s _
      · exact hR.refl s
    | input n span => exact hR.readLine s n
    | branch c body span =>
      have h := hR.evaluate depth (fun n hn => hstmt n (List.mem_append_left _ hn)) s
      have hbody : ∀ t, R t (DialogueScript.execute rounds depth body t).1 :=
        ih fun n hn => hstmt n (List.mem_append_right _ hn)
      dsimp only
      split
      · rename_i heq
        rwa [heq] at h
      · rename_i v t heq
        rw [heq] at h
        split
        · exact hR.trans h (hbody t)
        · exact h
        · exact h
    | loop body span =>
      have hbody : ∀ t, R t (DialogueScript.execute rounds depth body t).1 := ih hstmt
      exact hR.repeatStep hbody rounds s
    | exit span => exact hR.record s _
    | stray label fields => exact hR.refl s

theorem runFrom (policy : ErrorPolicy) (source : Option String) (limits : Limits) {p : List Stmt}
    (hp : ∀ n ∈ Stmt.targetsAll p, may n) (failures : List Failure) (s : Session) :
    R s (Program.runFrom policy source limits p failures s).2 := by
  induction p generalizing failures s with
  | nil => exact hR.refl s
  | cons stmt rest ih =>
    have h := hR.execute limits.rounds limits.depth (fun n hn => hp n (List.mem_append_left _ hn)) s
    have hrest : ∀ failures t, R t (Program.runFrom policy source limits rest failures t).2 :=
      ih fun n hn => hp n (List.mem_append_right _ hn)
    rcases hstep : DialogueScript.execute limits.rounds limits.depth stmt s with ⟨t, _ | why⟩
    · rw [hstep] at h
      rw [Program.runFrom_of_none hstep]
      exact hR.trans h (hrest _ t)
    · rw [hstep] at h
      rcases why.exit_or_crash_or_failure stmt with rfl | ⟨c, rfl⟩ | ⟨f, hf⟩
      · rw [Program.runFrom_of_exit hstep]
        exact h
      · rw [Program.runFrom_of_crash hstep]
        exact h
      · rw [Program.runFrom_of_failure hstep hf]
        split
        · exact h
        · exact hR.trans h (hR.trans (hR.record t _) (hrest _ _))

end RespectedOn

/-- A relation between the session before and after that holds of all steps. -/
structure Respected (R : Session → Session → Prop) : Prop where
  refl : ∀ s, R s s
  trans : ∀ {s t u}, R s t → R t u → R s u
  define : ∀ s n v, R s (s.define n v)
  assign : ∀ {s n v env}, s.env.assign? n v = some env → R s { s with env }
  readLine : ∀ s n, R s (s.readLine n)
  print : ∀ s line, R s (s.print line)
  record : ∀ s e, R s (s.record e)
  /-- A block that completes. -/
  leave : ∀ {s t}, R (s.push "block") t → R s t.pop
  /-- A block that stops. -/
  drop : ∀ {s t}, R (s.push "block") t → R s { t with env := t.env.unwindTo s.env.depth }

namespace Respected

variable {R : Session → Session → Prop} (hR : Respected R)

include hR

/-- Then it does not matter which names are assigned. -/
theorem on (may : String → Prop) : RespectedOn may R where
  refl := hR.refl
  trans := hR.trans
  define := hR.define
  assign _ := hR.assign
  readLine := hR.readLine
  print := hR.print
  record := hR.record
  leave := hR.leave
  drop := hR.drop

theorem runAll {step : Stmt → Session → Progress} (hstep : ∀ stmt s, R s (step stmt s).1)
    (p : List Stmt) (s : Session) : R s (DialogueScript.runAll step p s).1 :=
  (hR.on fun _ => True).runAll (fun stmt _ => hstep stmt) s

theorem execute (rounds depth : Nat) (stmt : Stmt) (s : Session) :
    R s (DialogueScript.execute rounds depth stmt s).1 :=
  (hR.on fun _ => True).execute rounds depth (fun _ _ => trivial) s

theorem runFrom (policy : ErrorPolicy) (source : Option String) (limits : Limits) (p : List Stmt)
    (failures : List Failure) (s : Session) :
    R s (Program.runFrom policy source limits p failures s).2 :=
  (hR.on fun _ => True).runFrom policy source limits (fun _ _ => trivial) failures s

end Respected

/-- Two relations that are both respected are respected together. -/
theorem Respected.and {R R' : Session → Session → Prop} (h : Respected R) (h' : Respected R') :
    Respected fun s t => R s t ∧ R' s t where
  refl s := ⟨h.refl s, h'.refl s⟩
  trans hst htu := ⟨h.trans hst.1 htu.1, h'.trans hst.2 htu.2⟩
  define s n v := ⟨h.define s n v, h'.define s n v⟩
  assign he := ⟨h.assign he, h'.assign he⟩
  readLine s n := ⟨h.readLine s n, h'.readLine s n⟩
  print s line := ⟨h.print s line, h'.print s line⟩
  record s e := ⟨h.record s e, h'.record s e⟩
  leave hst := ⟨h.leave hst.1, h'.leave hst.2⟩
  drop hst := ⟨h.drop hst.1, h'.drop hst.2⟩

namespace Session

theorem pop_env (s : Session) : s.pop.env = match s.env.pop? with
    | none => s.env
    | some p => p.env := by
  unfold pop
  cases s.env.pop? with
  | none => rfl
  | some p =>
    dsimp only
    split <;> rfl

theorem pop_input (s : Session) : s.pop.input = s.input := by
  unfold pop
  split
  · rfl
  · dsimp only
    split <;> rfl

theorem pop_output (s : Session) : s.pop.output = s.output := by
  unfold pop
  split
  · rfl
  · dsimp only
    split <;> rfl

theorem readLine_env (s : Session) (n : String) : ∃ v, (s.readLine n).env = s.env.define n v := by
  unfold readLine
  split
  · exact ⟨_, rfl⟩
  · exact ⟨_, rfl⟩

end Session

namespace Environment

theorem assign_modes {e e' : Environment} {n : String} {v : Value} (h : e.assign? n v = some e') :
    e'.scoping = e.scoping ∧ e'.storage = e.storage := by
  unfold assign? at h
  split at h
  · cases h
    exact ⟨rfl, rfl⟩
  · split at h
    · cases h
      exact ⟨rfl, rfl⟩
    · cases h

theorem pop_modes {e : Environment} {p : Popped} (h : e.pop? = some p) :
    p.env.scoping = e.scoping ∧ p.env.storage = e.storage := by
  unfold pop? at h
  split at h
  · cases h
  · cases h
    exact ⟨rfl, rfl⟩

theorem unwindTo_modes (e : Environment) (depth : Nat) :
    (e.unwindTo depth).scoping = e.scoping ∧ (e.unwindTo depth).storage = e.storage := by
  unfold unwindTo
  split <;> exact ⟨rfl, rfl⟩

end Environment

/-- How scopes and values are treated never changes. -/
theorem keepsModes :
    Respected fun s t => t.env.scoping = s.env.scoping ∧ t.env.storage = s.env.storage where
  refl _ := ⟨rfl, rfl⟩
  trans h₁ h₂ := ⟨h₂.1.trans h₁.1, h₂.2.trans h₁.2⟩
  define _ _ _ := ⟨rfl, rfl⟩
  assign h := Environment.assign_modes h
  readLine s n := by
    obtain ⟨v, hv⟩ := s.readLine_env n
    rw [hv]
    exact ⟨rfl, rfl⟩
  print _ _ := ⟨rfl, rfl⟩
  record _ _ := ⟨rfl, rfl⟩
  leave {s t} h := by
    rw [Session.pop_env]
    split
    · exact h
    · rename_i p hp
      have := Environment.pop_modes hp
      exact ⟨this.1.trans h.1, this.2.trans h.2⟩
  drop {s t} h := by
    have := t.env.unwindTo_modes s.env.depth
    exact ⟨this.1.trans h.1, this.2.trans h.2⟩

/-- With merging scopes only the innermost frame changes. -/
theorem keepsBelow :
    Respected fun s t => s.env.scoping = .merge →
      t.env.scoping = .merge ∧ t.env.below = s.env.below where
  refl _ hm := ⟨hm, rfl⟩
  trans h₁ h₂ hm := by
    obtain ⟨hm₁, hb₁⟩ := h₁ hm
    obtain ⟨hm₂, hb₂⟩ := h₂ hm₁
    exact ⟨hm₂, hb₂.trans hb₁⟩
  define _ _ _ hm := ⟨hm, rfl⟩
  assign {s n v env} h hm := by
    simp only [Environment.assign?, hm, Option.some.injEq] at h
    subst h
    exact ⟨hm, rfl⟩
  readLine s n hm := by
    obtain ⟨v, hv⟩ := s.readLine_env n
    rw [hv]
    exact ⟨hm, rfl⟩
  print _ _ hm := ⟨hm, rfl⟩
  record _ _ hm := ⟨hm, rfl⟩
  leave {s t} h hm := by
    obtain ⟨hm', hb⟩ := h hm
    have hbelow : t.env.below = s.env.top :: s.env.below := hb
    rw [Session.pop_env]
    simp [Environment.pop?, hbelow, hm']
  drop {s t} h hm := by
    obtain ⟨hm', hb⟩ := h hm
    have hframes : (t.env.unwindTo s.env.depth).frames = s.env.frames :=
      Environment.unwindTo_depth hb
    exact ⟨(t.env.unwindTo_modes _).1.trans hm', (List.cons_eq_cons.mp hframes).2⟩

/-- Frames stay proper, if what is kept of a value is always of the kind. -/
theorem keepsProper (kind : Value → Prop) :
    Respected fun s t => (∀ v, kind (s.env.stored v)) → s.env.Proper kind →
      (∀ v, kind (t.env.stored v)) ∧ t.env.Proper kind where
  refl _ hv hs := ⟨hv, hs⟩
  trans h₁ h₂ hv hs := h₂ (h₁ hv hs).1 (h₁ hv hs).2
  define _ n v hv hs := ⟨hv, Environment.proper_define hs n (hv v)⟩
  assign {s n v env} h hv hs := by
    refine ⟨fun w => ?_, Environment.proper_assign hs h (hv v)⟩
    have := hv w
    rwa [Environment.stored, ← (Environment.assign_modes h).2] at this
  readLine s n hv hs := by
    obtain ⟨v, henv⟩ := s.readLine_env n
    rw [henv]
    exact ⟨hv, Environment.proper_define hs n (hv v)⟩
  print _ _ hv hs := ⟨hv, hs⟩
  record _ _ hv hs := ⟨hv, hs⟩
  leave {s t} h hv hs := by
    obtain ⟨hv', ht⟩ := h hv (Environment.proper_push hs "block")
    rw [Session.pop_env]
    split
    · exact ⟨hv', ht⟩
    · rename_i p hp
      refine ⟨fun w => ?_, Environment.proper_pop ht hp⟩
      have := hv' w
      rwa [Environment.stored, ← (Environment.pop_modes hp).2] at this
  drop {s t} h hv hs := by
    obtain ⟨hv', ht⟩ := h hv (Environment.proper_push hs "block")
    refine ⟨fun w => ?_, Environment.proper_unwindTo ht _⟩
    have := hv' w
    rwa [Environment.stored, ← (t.env.unwindTo_modes s.env.depth).2] at this

end DialogueScript
