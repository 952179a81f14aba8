import Mathlib.Data.List.Forall2
import DialogueScript.Proofs.Executions

/-!
# What a block does to the frames around it

A block is executed in a frame of its own and leaves the frames around it as they were, as far as it
does not assign to them.

* `Frame.Reassigned` — the same frame with other values for some of its names;
* `Environment.frames_pop` — a block that completes drops the innermost frame;
* `keepsFrameNames`, `keepsOuterFrames` — what every step keeps of the frames;
* `execute_block_frames` — so the frames after a block are those before it; with merging scopes all
  of them are as before if the block stops, and all but the innermost if it completes; with lexical
  scopes only names that the block assigns have other values, and no name is bound or lost.
-/

namespace DialogueScript

/-- The frame binds the same names as before, and all but the targets to the same values. -/
structure Frame.Reassigned (targets : List String) (before after : Frame) : Prop where
  name : after.name = before.name
  names : after.bindings.names = before.bindings.names
  values : ∀ n, n ∉ targets → after.bindings.get? n = before.bindings.get? n

namespace Frame.Reassigned

variable {targets : List String}

theorem refl (f : Frame) : Frame.Reassigned targets f f := ⟨rfl, rfl, fun _ _ => rfl⟩

theorem trans {f g h : Frame} (hfg : f.Reassigned targets g) (hgh : g.Reassigned targets h) :
    f.Reassigned targets h where
  name := hgh.name.trans hfg.name
  names := hgh.names.trans hfg.names
  values n hn := (hgh.values n hn).trans (hfg.values n hn)

theorem set {f : Frame} {n : String} {w : Value} (hbound : f.bindings.get? n = some w)
    (hn : n ∈ targets) (v : Value) : f.Reassigned targets (f.set n v) where
  name := rfl
  names := by
    have hmem : n ∈ f.bindings.names := by
      by_contra hnot
      rw [Bindings.get?_eq_none_iff.mpr hnot] at hbound
      cases hbound
    show (f.bindings.set n v).names = f.bindings.names
    rw [Bindings.names_set, if_pos hmem]
  values m hm := by
    have hne : n ≠ m := fun h => hm (h ▸ hn)
    show (f.bindings.set n v).get? m = f.bindings.get? m
    rw [Bindings.get?_set, if_neg hne]

end Frame.Reassigned

/-- Frames one by one, each the same but for the values of some names. -/
abbrev Chain.Reassigned (targets : List String) : List Frame → List Frame → Prop :=
  List.Forall₂ (Frame.Reassigned targets)

namespace Chain.Reassigned

variable {targets : List String}

theorem refl (fs : List Frame) : Chain.Reassigned targets fs fs :=
  List.forall₂_same.mpr fun f _ => .refl f

theorem trans {fs gs hs : List Frame} (hfg : Chain.Reassigned targets fs gs)
    (hgh : Chain.Reassigned targets gs hs) : Chain.Reassigned targets fs hs := by
  induction hfg generalizing hs with
  | nil => exact hgh
  | cons hf _ ih =>
    cases hgh with
    | cons hg hrest => exact .cons (hf.trans hg) (ih hrest)

theorem rebind {fs gs : List Frame} {n : String} {v : Value} (hn : n ∈ targets)
    (h : Chain.rebind? fs n v = some gs) : Chain.Reassigned targets fs gs := by
  induction fs generalizing gs with
  | nil => simp [Chain.rebind?] at h
  | cons f fs ih =>
    unfold Chain.rebind? at h
    split at h
    · rename_i w hbound
      cases h
      exact .cons (.set hbound hn v) (Chain.Reassigned.refl fs)
    · obtain ⟨gs', hgs, rfl⟩ := Option.map_eq_some_iff.mp h
      exact .cons (.refl f) (ih hgs)

theorem map_name {fs gs : List Frame} (h : Chain.Reassigned targets fs gs) :
    gs.map (·.name) = fs.map (·.name) := by
  induction h with
  | nil => rfl
  | cons hf _ ih => rw [List.map_cons, List.map_cons, hf.name, ih]

end Chain.Reassigned

namespace Environment

variable {e : Environment}

/-- Leaving the innermost frame leaves the frames below it; with merging scopes the next one has new
bindings. -/
theorem frames_pop {p : Popped} (h : e.pop? = some p) :
    p.env.frames.map (·.name) = e.below.map (·.name) ∧
      (e.scoping = .lexical → p.env.frames = e.below) := by
  unfold pop? at h
  split at h
  · cases h
  · rename_i outer rest hbelow
    cases h
    rw [hbelow]
    refine ⟨rfl, fun hscoping => ?_⟩
    rw [hscoping]
    rfl

/-- With lexical scopes an assignment goes to the nearest frame that binds the name. -/
theorem reassigned_assign {e' : Environment} {n : String} {v : Value} {targets : List String}
    (hn : n ∈ targets) (hscoping : e.scoping = .lexical) (h : e.assign? n v = some e') :
    Chain.Reassigned targets e.frames e'.frames := by
  unfold assign? at h
  rw [hscoping] at h
  dsimp only at h
  split at h
  · rename_i top below hrebind
    cases h
    exact .rebind hn hrebind
  · cases h

theorem names_assign {e' : Environment} {n : String} {v : Value} (h : e.assign? n v = some e') :
    e'.frames.map (·.name) = e.frames.map (·.name) := by
  cases hscoping : e.scoping with
  | lexical =>
    have hframes := reassigned_assign (List.mem_singleton.mpr rfl) hscoping h
    exact hframes.map_name
  | merge =>
    simp only [assign?, hscoping, Option.some.injEq] at h
    subst h
    rfl

end Environment

namespace Session

variable {t : Session} {e : Environment}

theorem frames_pop (h : t.env.below.length = e.depth) :
    t.pop.env.frames.map (·.name) = t.env.below.map (·.name) ∧
      (t.env.scoping = .lexical → t.pop.env.frames = t.env.below) := by
  rw [pop_env]
  split
  · rename_i hpop
    unfold Environment.pop? at hpop
    split at hpop
    · rename_i hnil
      rw [hnil] at h
      cases h
    · cases hpop
  · rename_i p hpop
    exact Environment.frames_pop hpop

theorem length_below (h : t.env.below.map (·.name) = e.frames.map (·.name)) :
    t.env.below.length = e.depth := by
  have hlength := congrArg List.length h
  rw [List.length_map, List.length_map] at hlength
  exact hlength

end Session

/-- The frames stay the same frames in the same order. -/
theorem keepsFrameNames :
    Respected fun s t => t.env.frames.map (·.name) = s.env.frames.map (·.name) where
  refl _ := rfl
  trans h₁ h₂ := h₂.trans h₁
  define _ _ _ := rfl
  assign h := Environment.names_assign h
  readLine s n := by
    obtain ⟨v, hv⟩ := s.readLine_env n
    rw [hv]
    rfl
  print _ _ := rfl
  record _ _ := rfl
  leave {s t} h := by
    have hbelow : t.env.below.map (·.name) = s.env.frames.map (·.name) := (List.cons_eq_cons.mp h).2
    exact (Session.frames_pop (Session.length_below hbelow)).1.trans hbelow
  drop {s t} h := by
    have hbelow : t.env.below.map (·.name) = s.env.frames.map (·.name) := (List.cons_eq_cons.mp h).2
    show (t.env.unwindTo s.env.depth).frames.map (·.name) = _
    rw [Environment.frames_unwindTo (Session.length_below hbelow)]
    exact hbelow

/-- With lexical scopes the frames below the innermost one bind the same names, and only targets to
other values. -/
theorem keepsOuterFrames (targets : List String) :
    RespectedOn (· ∈ targets) fun s t => s.env.scoping = .lexical →
      t.env.scoping = .lexical ∧ Chain.Reassigned targets s.env.below t.env.below where
  refl s hl := ⟨hl, .refl _⟩
  trans h₁ h₂ hl := by
    obtain ⟨hl₁, hb₁⟩ := h₁ hl
    obtain ⟨hl₂, hb₂⟩ := h₂ hl₁
    exact ⟨hl₂, hb₁.trans hb₂⟩
  define s _ _ hl := ⟨hl, .refl _⟩
  assign {s n v env} hn h hl := by
    refine ⟨(Environment.assign_modes h).1.trans hl, ?_⟩
    have hframes := Environment.reassigned_assign hn hl h
    exact (List.forall₂_cons.mp hframes).2
  readLine s n hl := by
    obtain ⟨v, hv⟩ := s.readLine_env n
    rw [hv]
    exact ⟨hl, .refl _⟩
  print _ _ hl := ⟨hl, .refl _⟩
  record _ _ hl := ⟨hl, .refl _⟩
  leave {s t} h hl := by
    obtain ⟨hl', hbelow⟩ := h hl
    have hframes : t.pop.env.frames = t.env.below :=
      (@Session.frames_pop t s.env hbelow.length_eq.symm).2 hl'
    refine ⟨?_, ?_⟩
    · rw [Session.pop_env]
      split
      · exact hl'
      · rename_i p hpop
        exact (Environment.pop_modes hpop).1.trans hl'
    · have hall : Chain.Reassigned targets s.env.frames t.pop.env.frames := by
        rw [hframes]
        exact hbelow
      exact (List.forall₂_cons.mp hall).2
  drop {s t} h hl := by
    obtain ⟨hl', hbelow⟩ := h hl
    refine ⟨(t.env.unwindTo_modes _).1.trans hl', ?_⟩
    have hall : Chain.Reassigned targets s.env.frames (t.env.unwindTo s.env.depth).frames := by
      rw [Environment.frames_unwindTo hbelow.length_eq.symm]
      exact hbelow
    exact (List.forall₂_cons.mp hall).2

variable {rounds depth : Nat} {body : List Stmt} {s t : Session}

/-- Inside the frame of a block with merging scopes, the frames around it stay as they are. -/
theorem below_of_merge (hm : s.env.scoping = .merge)
    (h : (runAll (execute rounds depth) body (s.push "block")).1 = t) :
    t.env.scoping = .merge ∧ t.env.below = s.env.frames := by
  subst h
  exact keepsBelow.runAll (keepsBelow.execute rounds depth) body (s.push "block") hm

/-- With lexical scopes they bind the same names, and only targets to other values. -/
theorem below_of_lexical (hl : s.env.scoping = .lexical)
    (h : (runAll (execute rounds depth) body (s.push "block")).1 = t) :
    t.env.scoping = .lexical ∧
      Chain.Reassigned (Stmt.targetsAll body) s.env.frames t.env.below := by
  subst h
  have hkeeps := keepsOuterFrames (Stmt.targetsAll body)
  exact hkeeps.runAll (fun stmt hstmt => hkeeps.execute rounds depth fun n hn =>
    Stmt.mem_targetsAll.mpr ⟨stmt, hstmt, hn⟩) (s.push "block") hl

/-- **What a block does to the frames around it.**  Whether it completes or stops, and why, they are
the same frames in the same order.  With merging scopes all of them are as before if it stops, and
all but the innermost one if it completes.  With lexical scopes each of them binds the same names as
before, and has another value only for names that the block assigns. -/
theorem execute_block_frames (rounds depth : Nat) (body : List Stmt) (span : Option Span)
    (s : Session) :
    let after := execute rounds depth (.block body span) s
    after.1.env.frames.map (·.name) = s.env.frames.map (·.name) ∧
      match s.env.scoping, after.2 with
      | .merge, some _ => after.1.env.frames = s.env.frames
      | .merge, none => after.1.env.below = s.env.below
      | .lexical, _ =>
        List.Forall₂ (Frame.Reassigned (Stmt.targetsAll body)) s.env.frames after.1.env.frames := by
  intro after
  refine ⟨keepsFrameNames.execute rounds depth (.block body span) s, ?_⟩
  cases depth with
  | zero =>
    cases s.env.scoping with
    | lexical => exact Chain.Reassigned.refl _
    | merge => rfl
  | succ depth =>
    have hafter : after = inFrame (runAll (execute rounds depth) body) s := rfl
    unfold inFrame at hafter
    rcases hrun : runAll (execute rounds depth) body (s.push "block") with ⟨t, _ | why⟩
    · rw [hrun] at hafter
      rw [hafter]
      cases hscoping : s.env.scoping with
      | merge =>
        exact (keepsBelow.leave (fun _ => below_of_merge hscoping (congrArg Prod.fst hrun))
          hscoping).2
      | lexical =>
        obtain ⟨hl, hbelow⟩ := below_of_lexical hscoping (congrArg Prod.fst hrun)
        have hframes : t.pop.env.frames = t.env.below :=
          (@Session.frames_pop t s.env hbelow.length_eq.symm).2 hl
        show Chain.Reassigned _ _ t.pop.env.frames
        rw [hframes]
        exact hbelow
    · rw [hrun] at hafter
      rw [hafter]
      cases hscoping : s.env.scoping with
      | merge =>
        exact Environment.unwindTo_depth (below_of_merge hscoping (congrArg Prod.fst hrun)).2
      | lexical =>
        obtain ⟨-, hbelow⟩ := below_of_lexical hscoping (congrArg Prod.fst hrun)
        show Chain.Reassigned _ _ (t.env.unwindTo s.env.depth).frames
        rw [Environment.frames_unwindTo hbelow.length_eq.symm]
        exact hbelow

end DialogueScript
