import DialogueScript.Scope.Frame
import DialogueScript.Settings

/-!
# Environments

Model of `Environment`, the scopes that one interpreter owns.

The variables of a run: a stack of frames that never loses its outermost frame.  With merging
scopes an assignment goes to the innermost frame, and leaving a frame carries outwards every
binding that changes what the frames outside show.

* `Environment.define`, `Environment.assign?`, `Environment.lookup` — the uses of a variable;
* `Environment.push`, `Environment.pop?` — entering and leaving a frame;
* `Environment.unwindTo` — dropping the frames above a depth, carrying nothing outwards;
* `Environment.depth_push`, `Environment.depth_pop` — what they do to the depth.
-/

namespace DialogueScript

structure Environment where
  scoping : Scoping := .lexical
  storage : Storage := .tagged
  top : Frame := { name := "global" }
  /-- The frames outside the innermost one. -/
  below : List Frame := []
  deriving DecidableEq

/-- A frame that was left. -/
structure Popped where
  env : Environment
  frame : Frame
  /-- The bindings that were carried outwards. -/
  carried : Bindings

namespace Environment

def frames (e : Environment) : List Frame := e.top :: e.below

def depth (e : Environment) : Nat := e.below.length + 1

/-- A value as it is kept.  Model of `Environment._stored`. -/
def stored (e : Environment) (v : Value) : Value :=
  match e.storage with
  | .tagged => v
  | .text => .text v.display

/-- Model of `Environment.get`. -/
def lookup (e : Environment) (n : String) : Option Value := Chain.lookup e.frames n

/-- Binds a name in the innermost frame.  Model of `Environment.define`. -/
def define (e : Environment) (n : String) (v : Value) : Environment :=
  { e with top := e.top.set n (e.stored v) }

/-- Gives a name a new value.  With lexical scopes the name has to be bound.  Model of
`Environment.assign`. -/
def assign? (e : Environment) (n : String) (v : Value) : Option Environment :=
  match e.scoping with
  | .merge => some (e.define n v)
  | .lexical =>
    match Chain.rebind? e.frames n (e.stored v) with
    | some (top :: below) => some { e with top, below }
    | _ => none

/-- Enters a frame.  Model of `Environment.push`. -/
def push (e : Environment) (name : String) : Environment :=
  { e with top := { name }, below := e.frames }

/-- The bindings of the innermost frame that the frames outside do not show. -/
def changed (e : Environment) : Bindings :=
  e.top.bindings.filter fun b => match Chain.lookup e.below b.1 with
    | some w => !w.same b.2
    | none => true

/-- Leaves the innermost frame, unless it is the outermost one.  Model of `Environment.pop`. -/
def pop? (e : Environment) : Option Popped :=
  match e.below with
  | [] => none
  | outer :: rest =>
    let carried := match e.scoping with
      | .lexical => []
      | .merge => e.changed
    let outer := { outer with bindings := outer.bindings.setAll carried }
    some ⟨{ e with top := outer, below := rest }, e.top, carried⟩

/-- Drops the frames above a depth, but never the outermost one.  Model of what
`Environment.new_scope` does when its body fails. -/
def unwindTo (e : Environment) (depth : Nat) : Environment :=
  match e.frames.drop (e.depth - depth) with
  | [] => e
  | top :: below => { e with top, below }

theorem depth_push (e : Environment) (name : String) : (e.push name).depth = e.depth + 1 := by
  simp [push, depth, frames]

theorem depth_pop {e : Environment} {p : Popped} (h : e.pop? = some p) :
    p.env.depth + 1 = e.depth := by
  unfold pop? at h
  split at h
  · exact absurd h (by simp)
  · rename_i outer rest hb
    simp only [Option.some.injEq] at h
    subst h
    simp [depth, hb]

theorem depth_unwindTo {e : Environment} {d : Nat} (hd : 0 < d) :
    (e.unwindTo d).depth = min e.depth d := by
  unfold unwindTo
  have hf : e.frames.length = e.depth := by simp [frames, depth]
  split
  · rename_i h
    have := List.drop_eq_nil_iff.mp h
    have : 0 < e.depth := by simp [depth]
    omega
  · rename_i top below h
    have := congrArg List.length h
    simp only [List.length_drop, List.length_cons, hf] at this
    simp only [depth] at this ⊢
    omega

end Environment

end DialogueScript
