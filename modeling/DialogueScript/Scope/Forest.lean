import DialogueScript.Scope.Frame

/-!
# Forests of scopes

Model of `Scope` where several scopes may have the same parent, as `Scope.get`, `Scope.set` and
`Scope.update` see them.

Scopes that share the scopes around them.  Every scope but a root lies in a scope that was made
before it, so the chain from a scope outwards comes to an end.

* `Forest.chain` — a scope and the scopes around it, innermost first;
* `Forest.holder?` — the nearest scope on a chain that binds a name;
* `Forest.get?`, `Forest.set`, `Forest.update?` — looking up, binding and rebinding a name;
* `Forest.update` — rebinding with an answer, which is no if there is nothing to rebind;
* `Forest.update?_isSome` — a name can be rebound exactly when it can be looked up.
-/

namespace DialogueScript

structure Scope where
  frame : Frame := {}
  /-- The scope around this one, by its number. -/
  parent : Option Nat := none
  deriving DecidableEq

/-- Scopes by number, in the order in which they were made. -/
structure Forest where
  scopes : List Scope := []
  deriving DecidableEq

namespace Forest

/-- Makes a new scope and tells its number. -/
def new (f : Forest) (parent : Option Nat) (name : String) : Nat × Forest :=
  (f.scopes.length, ⟨f.scopes ++ [⟨{ name }, parent⟩]⟩)

/-- Follows the parents from scope `i`, as long as their numbers go down. -/
def chainFrom (f : Forest) : Nat → Nat → List Nat
  | 0, _ => []
  | steps + 1, i =>
    match f.scopes[i]? with
    | none => []
    | some s => i :: match s.parent with
      | some j => if j < i then chainFrom f steps j else []
      | none => []

/-- The numbers of a scope and of the scopes around it. -/
def chain (f : Forest) (i : Nat) : List Nat := f.chainFrom (i + 1) i

def frameAt (f : Forest) (i : Nat) : Frame := (f.scopes[i]?.map (·.frame)).getD {}

/-- The frames from a scope outwards. -/
def frames (f : Forest) (i : Nat) : List Frame := (f.chain i).map f.frameAt

/-- The value of a name as seen from a scope.  Model of `Scope.get`. -/
def get? (f : Forest) (i : Nat) (n : String) : Option Value := Chain.lookup (f.frames i) n

/-- Binds a name in a scope itself.  Model of `Scope.set`. -/
def set (f : Forest) (i : Nat) (n : String) (v : Value) : Forest :=
  ⟨f.scopes.modify i fun s => { s with frame := s.frame.set n v }⟩

/-- The nearest scope that binds a name, from a scope outwards. -/
def holder? (f : Forest) (i : Nat) (n : String) : Option Nat :=
  (f.chain i).find? fun j => ((f.frameAt j).bindings.get? n).isSome

/-- Gives a name a new value in the nearest scope that binds it, if one does. -/
def update? (f : Forest) (i : Nat) (n : String) (v : Value) : Option Forest :=
  (f.holder? i n).map fun j => f.set j n v

/-- Whether the name could be rebound, and the scopes after that.  Model of `Scope.update`. -/
def update (f : Forest) (i : Nat) (n : String) (v : Value) : Bool × Forest :=
  match f.update? i n v with
  | some g => (true, g)
  | none => (false, f)

theorem lookup_isSome_iff (fs : List Frame) (n : String) :
    (Chain.lookup fs n).isSome = true ↔ ∃ g ∈ fs, (g.bindings.get? n).isSome = true := by
  induction fs with
  | nil => simp [Chain.lookup]
  | cons g fs ih =>
    unfold Chain.lookup
    split
    · rename_i v h
      simp [h]
    · rename_i h
      simp [h, ih]

theorem update?_isSome (f : Forest) (i : Nat) (n : String) (v : Value) :
    (f.update? i n v).isSome = (f.get? i n).isSome := by
  rw [Bool.eq_iff_iff, get?, lookup_isSome_iff]
  simp only [update?, holder?, frames, Option.isSome_map, List.find?_isSome, List.mem_map]
  exact ⟨fun ⟨j, hj, h⟩ => ⟨_, ⟨j, hj, rfl⟩, h⟩, fun ⟨_, ⟨j, hj, e⟩, h⟩ => ⟨j, hj, e ▸ h⟩⟩

end Forest

end DialogueScript
