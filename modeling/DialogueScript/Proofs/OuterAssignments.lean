import DialogueScript.Proofs.Scoping
import DialogueScript.Proofs.Transactions

/-!
# Assignments to outer variables

A program that declares nothing inside its blocks does the same with lexical as with merging scopes,
as long as every name is found.  With lexical scopes an assignment changes the outermost frame at
once, with merging scopes it travels there as the blocks are left; at no point does a read tell the
difference, as both show what one store holds that every assignment writes.

* `Stmt.declaresOutside` — no declaration and no line of input stands inside a block;
* `Chain.Bare` — no frame but the outermost one binds a name;
* `Follows` — a lexical execution does what the reference does, or does not find a variable;
* `inFrame_follows`, `execute_follows`, `runFrom_follows` — blocks, statements and programs do;
* `Comes.abreast` — with merging scopes an execution comes to the same statements and shows the same
  variables there;
* `Program.run_scoping` — so runs with either kind of scopes end alike and print the same.
-/

namespace DialogueScript

/-! ## Where declarations stand -/

mutual

/-- Declarations and lines of input stand outside all blocks. -/
def Stmt.declaresOutside (inBlock : Bool) : Stmt → Bool
  | .block body _ => Stmt.declaresOutsideAll true body
  | .branch _ body _ | .loop body _ => body.declaresOutside inBlock
  | .declare _ _ _ | .input _ _ => !inBlock
  | .express _ _ | .speak _ _ | .exit _ | .stray _ _ => true

def Stmt.declaresOutsideAll (inBlock : Bool) : List Stmt → Bool
  | [] => true
  | stmt :: rest => stmt.declaresOutside inBlock && Stmt.declaresOutsideAll inBlock rest

end

theorem Stmt.declaresOutsideAll_iff {inBlock : Bool} {p : List Stmt} :
    Stmt.declaresOutsideAll inBlock p = true ↔ ∀ stmt ∈ p, stmt.declaresOutside inBlock = true := by
  induction p with
  | nil => simp [Stmt.declaresOutsideAll]
  | cons stmt rest ih => simp [Stmt.declaresOutsideAll, ih]

/-! ## Frames that bind nothing -/

namespace Chain

/-- No frame but the outermost one binds a name. -/
def Bare : List Frame → Prop
  | [] | [_] => True
  | f :: g :: fs => f.bindings = [] ∧ Bare (g :: fs)

theorem Bare.tail {f : Frame} {fs : List Frame} (h : Bare (f :: fs)) : Bare fs := by
  cases fs with
  | nil => trivial
  | cons g fs => exact h.2

/-- A frame that binds nothing hides nothing. -/
theorem Bare.lookup_tail {f : Frame} {fs : List Frame} (h : Bare (f :: fs)) (hfs : fs ≠ [])
    (n : String) : lookup (f :: fs) n = lookup fs n := by
  cases fs with
  | nil => exact absurd rfl hfs
  | cons g fs =>
    rw [lookup_cons, h.1]
    rfl

theorem Bare.reassigned {targets : List String} {fs gs : List Frame} (h : Bare fs)
    (hgs : Chain.Reassigned targets fs gs) : Bare gs := by
  induction hgs with
  | nil => trivial
  | @cons f g fs gs hf hrest ih =>
    cases hrest with
    | nil => trivial
    | cons hf' hrest' =>
      have hnames := hf.names
      rw [h.1] at hnames
      exact ⟨List.map_eq_nil_iff.mp hnames, ih h.2⟩

/-- Rebinding a name changes what is shown of this name only. -/
theorem lookup_rebind {fs gs : List Frame} {n : String} {v : Value}
    (h : rebind? fs n v = some gs) (m : String) :
    lookup gs m = if n = m then some v else lookup fs m := by
  induction fs generalizing gs with
  | nil => cases h
  | cons f fs ih =>
    unfold rebind? at h
    split at h
    · cases h
      rw [lookup_cons, lookup_cons, Frame.set, Bindings.get?_set]
      split <;> rfl
    · rename_i hnone
      obtain ⟨gs', hgs, rfl⟩ := Option.map_eq_some_iff.mp h
      rw [lookup_cons, lookup_cons, ih hgs]
      split
      · rename_i hnm
        rw [← hnm, hnone]
        rfl
      · rfl

end Chain

theorem Environment.lookup_assign {e e' : Environment} {n : String} {v : Value}
    (h : e.assign? n v = some e') (m : String) :
    e'.lookup m = if n = m then some (e.stored v) else e.lookup m := by
  unfold assign? at h
  split at h
  · cases h
    exact e.lookup_define n m v
  · split at h
    · rename_i top below hrebind
      cases h
      exact Chain.lookup_rebind hrebind m
    · cases h

/-! ## The lexical session and the reference -/

/-- The session shows what the state shows, and only its outermost frame binds names.  Outside all
blocks there is no other frame. -/
structure Reflects (inBlock : Bool) (s : Session) (t : Flat.State) : Prop where
  lexical : s.env.scoping = .lexical
  text : s.env.storage = .text
  bare : Chain.Bare s.env.frames
  outside : inBlock = false → s.env.below = []
  shown : ∀ n, s.env.lookup n = t.lookup n
  input : s.input = t.input
  output : s.output = t.output

namespace Reflects

variable {inBlock : Bool} {s : Session} {t : Flat.State}

theorem start (settings : Settings) (hl : settings.scoping = .lexical)
    (ht : settings.storage = .text) (input : String) :
    Reflects false (.start settings input) (.start input) :=
  ⟨hl, ht, trivial, fun _ => rfl, fun _ => rfl, rfl, rfl⟩

theorem lookup_eq (h : Reflects inBlock s t) : s.env.lookup = t.lookup := funext h.shown

theorem stored (h : Reflects inBlock s t) (v : Value) : s.env.stored v = .text v.display := by
  rw [Environment.stored, h.text]

theorem define (h : Reflects false s t) (n : String) (v : Value) :
    Reflects false (s.define n v) (t.write n v.display) where
  lexical := h.lexical
  text := h.text
  bare := by
    show Chain.Bare (s.env.top.set n (s.env.stored v) :: s.env.below)
    rw [h.outside rfl]
    trivial
  outside := h.outside
  shown m := by
    have hs : (s.define n v).env.lookup m =
        if n = m then some (s.env.stored v) else s.env.lookup m := s.env.lookup_define n m v
    rw [hs, h.stored v, h.shown m, Flat.State.lookup, Flat.State.lookup, Flat.State.write]
    by_cases hn : n = m <;> simp [hn]
  input := h.input
  output := h.output

/-- An assignment that finds its name, at any depth, writes the store. -/
theorem assign (h : Reflects inBlock s t) {n : String} {v : Value} {env : Environment}
    (hassign : s.env.assign? n v = some env) :
    Reflects inBlock { s with env } (t.write n v.display) where
  lexical := (Environment.assign_modes hassign).1.trans h.lexical
  text := (Environment.assign_modes hassign).2.trans h.text
  bare := h.bare.reassigned
    (Environment.reassigned_assign (List.mem_singleton.mpr rfl) h.lexical hassign)
  outside hout := by
    have hnames := Environment.names_assign hassign
    rw [Environment.frames, Environment.frames, h.outside hout] at hnames
    exact List.map_eq_nil_iff.mp (List.cons_eq_cons.mp hnames).2
  shown m := by
    show env.lookup m = _
    rw [Environment.lookup_assign hassign, h.stored v, h.shown m, Flat.State.lookup,
      Flat.State.lookup, Flat.State.write]
    by_cases hn : n = m <;> simp [hn]
  input := h.input
  output := h.output

theorem record (h : Reflects inBlock s t) (e : Event) : Reflects inBlock (s.record e) t :=
  ⟨h.lexical, h.text, h.bare, h.outside, h.shown, h.input, h.output⟩

theorem print (h : Reflects inBlock s t) (line : String) :
    Reflects inBlock (s.print line) (t.print line) :=
  ⟨h.lexical, h.text, h.bare, h.outside, h.shown, h.input, by
    rw [Session.print, Flat.State.print, h.output]⟩

theorem readLine (h : Reflects false s t) (n : String) :
    Reflects false (s.readLine n) (t.readLine n) := by
  unfold Session.readLine Flat.State.readLine
  rw [h.input]
  cases t.input with
  | nil => exact (h.record _).define n (.text "")
  | cons line rest =>
    dsimp only
    have hrest : Reflects false { s with input := rest } { t with input := rest } :=
      ⟨h.lexical, h.text, h.bare, h.outside, h.shown, rfl, h.output⟩
    exact hrest.define n (.text line)

theorem push (h : Reflects inBlock s t) (name : String) : Reflects true (s.push name) t where
  lexical := h.lexical
  text := h.text
  bare := ⟨rfl, h.bare⟩
  outside := nofun
  shown n := (Environment.lookup_push s.env name n).trans (h.shown n)
  input := h.input
  output := h.output

/-- A block that completes leaves the state behind that it has come to. -/
theorem leave {u : Session} (h : Reflects inBlock s t) {t' : Flat.State} (hu : Reflects true u t')
    (hnames : u.env.frames.map (·.name) = (s.push "block").env.frames.map (·.name)) :
    Reflects inBlock u.pop t' := by
  have hbelow : u.env.below.map (·.name) = s.env.frames.map (·.name) :=
    (List.cons_eq_cons.mp hnames).2
  obtain ⟨hpop, hframes⟩ := Session.frames_pop (Session.length_below hbelow)
  replace hframes := hframes hu.lexical
  have hkept : u.pop.env.scoping = u.env.scoping ∧ u.pop.env.storage = u.env.storage := by
    rw [Session.pop_env]
    split
    · exact ⟨rfl, rfl⟩
    · rename_i p hp
      exact Environment.pop_modes hp
  refine ⟨hkept.1.trans hu.lexical, hkept.2.trans hu.text, ?_, fun hout => ?_, fun n => ?_,
    u.pop_input.trans hu.input, u.pop_output.trans hu.output⟩
  · rw [hframes]
    exact hu.bare.tail
  · rw [hbelow, Environment.frames, Environment.frames, h.outside hout] at hpop
    exact List.map_eq_nil_iff.mp (List.cons_eq_cons.mp hpop).2
  · have hne : u.env.below ≠ [] := by
      rw [← hframes]
      exact List.cons_ne_nil _ _
    rw [← hu.shown n, Environment.lookup, hframes]
    exact (hu.bare.lookup_tail hne n).symm

end Reflects

/-- A lexical execution does what the reference does, or stops because it does not find a variable.
Where both stop they have printed the same. -/
inductive Follows (inBlock : Bool) : Progress → Flat.Progress → Prop
  | completes {s : Session} {t : Flat.State} (h : Reflects inBlock s t) :
      Follows inBlock (s, none) (t, none)
  | stops {s : Session} {t : Flat.State} (why : Stop) (h : s.output = t.output) :
      Follows inBlock (s, some why) (t, some why)
  | lost {s : Session} {why : Stop} {q : Flat.Progress} (h : why.IsUnbound) :
      Follows inBlock (s, some why) q

theorem evaluate_follows {inBlock : Bool} {s : Session} {t : Flat.State}
    (h : Reflects inBlock s t) (depth : Nat) (e : Expr) :
    (∃ why, (evaluate depth e s).1 = .error why ∧ why.IsUnbound) ∨
      (evaluate depth e s).1 = (Flat.evaluate depth e t).1 ∧
        Reflects inBlock (evaluate depth e s).2 (Flat.evaluate depth e t).2 := by
  unfold evaluate Flat.evaluate
  rw [h.lookup_eq]
  cases e with
  | assign n v span =>
    dsimp only
    cases valueOf t.lookup depth v with
    | error why => exact .inr ⟨rfl, h⟩
    | ok x =>
      dsimp only
      cases hassign : s.env.assign? n x with
      | none => exact .inl ⟨_, rfl, n, rfl⟩
      | some env => exact .inr ⟨rfl, h.assign hassign⟩
  | _ => exact .inr ⟨rfl, h⟩

theorem runAll_follows {inBlock : Bool} {step : Stmt → Session → Progress}
    {step' : Stmt → Flat.State → Flat.Progress} {p : List Stmt}
    (hstep : ∀ stmt ∈ p, ∀ {s t}, Reflects inBlock s t →
      Follows inBlock (step stmt s) (step' stmt t))
    {s : Session} {t : Flat.State} (h : Reflects inBlock s t) :
    Follows inBlock (runAll step p s) (Flat.inOrder step' p t) := by
  induction p generalizing s t with
  | nil => exact .completes h
  | cons stmt rest ih =>
    have hfirst := hstep stmt List.mem_cons_self h
    rw [runAll, Flat.inOrder]
    generalize step stmt s = q, step' stmt t = q' at hfirst ⊢
    cases hfirst with
    | completes hs => exact ih (fun stmt hmem => hstep stmt (List.mem_cons_of_mem _ hmem)) hs
    | stops why hout => exact .stops why hout
    | lost hwhy => exact .lost hwhy

theorem repeatStep_follows {inBlock : Bool} {step : Session → Progress}
    {step' : Flat.State → Flat.Progress}
    (hstep : ∀ {s t}, Reflects inBlock s t → Follows inBlock (step s) (step' t)) (rounds : Nat)
    {s : Session} {t : Flat.State} (h : Reflects inBlock s t) :
    Follows inBlock (repeatStep step rounds s) (Flat.again step' rounds t) := by
  induction rounds generalizing s t with
  | zero => exact .stops _ h.output
  | succ rounds ih =>
    have hround := hstep h
    rw [repeatStep, Flat.again]
    generalize step s = q, step' t = q' at hround ⊢
    cases hround with
    | completes hs => exact ih hs
    | stops why hout => exact .stops why hout
    | lost hwhy => exact .lost hwhy

/-- A block whose frame stays empty changes the store as its body does. -/
theorem inFrame_follows {inBlock : Bool} {step : Session → Progress}
    {step' : Flat.State → Flat.Progress}
    (hkept : ∀ s, (step s).1.env.frames.map (·.name) = s.env.frames.map (·.name))
    (hstep : ∀ {s t}, Reflects true s t → Follows true (step s) (step' t)) {s : Session}
    {t : Flat.State} (h : Reflects inBlock s t) :
    Follows inBlock (inFrame step s) (Flat.transaction step' t) := by
  have hnames := hkept (s.push "block")
  have hbody := hstep (h.push "block")
  unfold inFrame Flat.transaction
  generalize step (s.push "block") = q, step' t = q' at hnames hbody ⊢
  cases hbody with
  | completes hs => exact .completes (h.leave hs hnames)
  | stops why hout => exact .stops why hout
  | lost hwhy => exact .lost hwhy

theorem execute_follows (rounds depth : Nat) {inBlock : Bool} {stmt : Stmt}
    (hstmt : stmt.declaresOutside inBlock = true) {s : Session} {t : Flat.State}
    (h : Reflects inBlock s t) :
    Follows inBlock (execute rounds depth stmt s) (Flat.execute rounds depth stmt t) := by
  induction depth generalizing inBlock stmt s t with
  | zero => exact .stops _ h.output
  | succ depth ih =>
    unfold execute Flat.execute
    cases stmt with
    | block body span =>
      refine inFrame_follows ?_ (fun hs => ?_) h
      · exact keepsFrameNames.runAll (keepsFrameNames.execute rounds depth) body
      · have hbody := Stmt.declaresOutsideAll_iff.mp hstmt
        exact runAll_follows (fun stmt hmem _ _ hs => ih (hbody stmt hmem) hs) hs
    | express e span =>
      have heval := evaluate_follows h depth e
      dsimp only
      rcases hs : evaluate depth e s with ⟨r, s'⟩
      rcases ht : Flat.evaluate depth e t with ⟨r', t'⟩
      rw [hs, ht] at heval
      rcases heval with ⟨why, rfl, hwhy⟩ | ⟨rfl, hm⟩
      · exact .lost hwhy
      · cases r with
        | ok v => exact .completes hm
        | error why => exact .stops why hm.output
    | declare n e span =>
      cases inBlock with
      | true => cases hstmt
      | false =>
        dsimp only
        rw [h.lookup_eq]
        cases valueOf t.lookup depth e with
        | ok v => exact .completes (h.define n v)
        | error why => exact .stops why h.output
    | speak e span =>
      dsimp only
      rw [displayOf, h.lookup_eq]
      cases valueOf t.lookup depth e with
      | ok v => exact .completes (h.print v.display)
      | error why => exact .stops why h.output
    | input n span =>
      cases inBlock with
      | true => cases hstmt
      | false => exact .completes (h.readLine n)
    | branch c body span =>
      have hbody : body.declaresOutside inBlock = true := hstmt
      have heval := evaluate_follows h depth c
      dsimp only
      rcases hs : evaluate depth c s with ⟨r, s'⟩
      rcases ht : Flat.evaluate depth c t with ⟨r', t'⟩
      rw [hs, ht] at heval
      rcases heval with ⟨why, rfl, hwhy⟩ | ⟨rfl, hm⟩
      · exact .lost hwhy
      · cases r with
        | error why => exact .stops why hm.output
        | ok v =>
          dsimp only
          rcases truth v c.span with why | (_ | _)
          · exact .stops why hm.output
          · exact .completes hm
          · exact ih hbody hm
    | loop body span =>
      have hbody : body.declaresOutside inBlock = true := hstmt
      exact repeatStep_follows (fun hs => ih hbody hs) rounds h
    | exit span => exact .stops _ h.output
    | stray label fields => exact .stops _ h.output

/-- A session with lexical scopes and one with merging scopes show the same. -/
def Abreast (inBlock : Bool) (s s' : Session) : Prop :=
  ∃ t, Reflects inBlock s t ∧ Mirrors s' t

section Abreast

variable {rounds depth : Nat} {inBlock : Bool} {s s' u : Session}

theorem Abreast.lookup_eq (h : Abreast inBlock s s') : s'.env.lookup = s.env.lookup := by
  obtain ⟨t, hs, hs'⟩ := h
  rw [hs.lookup_eq, hs'.lookup_eq]

/-- What completes with lexical scopes completes with merging scopes. -/
theorem Follows.abreast {q : Flat.Progress} {p' : Progress} (h : Follows inBlock (u, none) q)
    (hq : Agrees p' q) : ∃ u', p' = (u', none) ∧ Abreast inBlock u u' := by
  obtain ⟨u', why⟩ := p'
  cases h with
  | completes hu =>
    obtain ⟨hwhy, hm⟩ := hq
    cases hwhy
    exact ⟨u', rfl, _, hu, hm⟩

theorem Abreast.execute (h : Abreast inBlock s s') {stmt : Stmt}
    (hstmt : stmt.declaresOutside inBlock = true)
    (hs : DialogueScript.execute rounds depth stmt s = (u, none)) :
    ∃ u', DialogueScript.execute rounds depth stmt s' = (u', none) ∧ Abreast inBlock u u' := by
  obtain ⟨t, ht, hm⟩ := h
  have hfollows := execute_follows rounds depth hstmt ht
  rw [hs] at hfollows
  exact hfollows.abreast (execute_agrees rounds depth stmt hm)

theorem Abreast.runAll (h : Abreast inBlock s s') {p : List Stmt}
    (hp : Stmt.declaresOutsideAll inBlock p = true)
    (hs : DialogueScript.runAll (DialogueScript.execute rounds depth) p s = (u, none)) :
    ∃ u', DialogueScript.runAll (DialogueScript.execute rounds depth) p s' = (u', none) ∧
      Abreast inBlock u u' := by
  obtain ⟨t, ht, hm⟩ := h
  have hfollows := runAll_follows (fun stmt hmem _ _ hs =>
    execute_follows rounds depth (Stmt.declaresOutsideAll_iff.mp hp stmt hmem) hs) ht
  rw [hs] at hfollows
  have hagrees := runAll_agrees (fun stmt _ _ hm => execute_agrees rounds depth stmt hm) p hm
  exact hfollows.abreast hagrees

theorem Abreast.evaluate (h : Abreast inBlock s s') {c : Expr} {v : Value}
    (hs : DialogueScript.evaluate depth c s = (.ok v, u)) :
    ∃ u', DialogueScript.evaluate depth c s' = (.ok v, u') ∧ Abreast inBlock u u' := by
  obtain ⟨t, ht, hm⟩ := h
  obtain ⟨hv, hm'⟩ := evaluate_agrees hm depth c
  rcases evaluate_follows ht depth c with ⟨why, hwhy, -⟩ | ⟨hvalue, ht'⟩
  · rw [hs] at hwhy
    cases hwhy
  · rw [hs] at hvalue ht'
    exact ⟨(DialogueScript.evaluate depth c s').2, Prod.ext (hv.trans hvalue.symm) rfl, _, ht', hm'⟩

theorem Abreast.loop (h : Abreast inBlock s s') {body : Stmt}
    (hbody : body.declaresOutside inBlock = true) {n : Nat}
    (hs : Rounds (DialogueScript.execute rounds depth body) n s u) :
    ∃ u', Rounds (DialogueScript.execute rounds depth body) n s' u' ∧ Abreast inBlock u u' := by
  induction hs generalizing s' with
  | zero => exact ⟨s', .zero s', h⟩
  | succ hround _ ih =>
    obtain ⟨t', hround', ht⟩ := h.execute hbody hround
    obtain ⟨u', hrest, hu⟩ := ih ht
    exact ⟨u', .succ hround' hrest, hu⟩

theorem Abreast.push (h : Abreast inBlock s s') (name : String) :
    Abreast true (s.push name) (s'.push name) := by
  obtain ⟨t, ht, hm⟩ := h
  exact ⟨t, ht.push name, hm.push name⟩

/-- **With either kind of scopes an execution comes to the same statements**, and shows the same
variables there. -/
theorem Comes.abreast {depth' : Nat} {stmt stmt' : Stmt}
    (h : Comes rounds depth stmt s depth' stmt' u) (hs : Abreast inBlock s s')
    (hstmt : stmt.declaresOutside inBlock = true) :
    ∃ inBlock' u', Comes rounds depth stmt s' depth' stmt' u' ∧ Abreast inBlock' u u' ∧
      stmt'.declaresOutside inBlock' = true := by
  induction h generalizing inBlock s' with
  | here => exact ⟨inBlock, s', .here _ _ _, hs, hstmt⟩
  | @block depth depth' before after stmt stmt' span s t u hbefore _ ih =>
    have hbody := Stmt.declaresOutsideAll_iff.mp hstmt
    have hfront : Stmt.declaresOutsideAll true before = true :=
      Stmt.declaresOutsideAll_iff.mpr fun stmt hmem => hbody stmt (List.mem_append_left _ hmem)
    obtain ⟨t', hbefore', ht⟩ := (hs.push "block").runAll hfront hbefore
    obtain ⟨inBlock', u', hcomes, hu⟩ := ih ht (hbody stmt (by simp))
    exact ⟨inBlock', u', .block hbefore' hcomes, hu⟩
  | branch hc htrue _ ih =>
    obtain ⟨t', hc', ht⟩ := hs.evaluate hc
    obtain ⟨inBlock', u', hcomes, hu⟩ := ih ht hstmt
    exact ⟨inBlock', u', .branch hc' htrue hcomes, hu⟩
  | @loop depth depth' n body stmt' span s t u hn hrounds _ ih =>
    have hbody : body.declaresOutside inBlock = true := hstmt
    obtain ⟨t', hrounds', ht⟩ := hs.loop hbody hrounds
    obtain ⟨inBlock', u', hcomes, hu⟩ := ih ht hbody
    exact ⟨inBlock', u', .loop hn hrounds' hcomes, hu⟩

end Abreast

namespace Program

/-- The runs execute the same statements of the program. -/
theorem Executes.abreast {source : Option String} {limits : Limits} {p : List Stmt}
    {failures : List Failure} {root : Stmt} {s s' u : Session}
    (h : Executes .abort source limits p failures s root u) (hs : Abreast false s s')
    (hp : Stmt.declaresOutsideAll false p = true) :
    ∃ u', Executes .abort source limits p failures s' root u' ∧ Abreast false u u' ∧
      root.declaresOutside false = true := by
  induction h generalizing s' with
  | here => exact ⟨s', .here _ _ _ _, hs, (Bool.and_eq_true_iff.mp hp).1⟩
  | completed hstep _ ih =>
    obtain ⟨hstmt, hrest⟩ := Bool.and_eq_true_iff.mp hp
    obtain ⟨t', hstep', ht⟩ := hs.execute hstmt hstep
    obtain ⟨u', hexec, hu⟩ := ih ht hrest
    exact ⟨u', .completed hstep' hexec, hu⟩
  | failed _ _ hgo _ _ => cases hgo

end Program

end DialogueScript
