import DialogueScript.Value

/-!
# Frames

Model of `Scope`: its variables, and the walk along its parents in `Scope.get` and `Scope.update`.

A frame binds names to values.  Frames lie inside one another: a name is looked up from the
innermost frame outwards, and rebinding a name changes the innermost frame that binds it.

* `Bindings.get?_set` — what a name is bound to after a binding was set;
* `Chain.lookup`, `Chain.rebind?` — looking up and rebinding along a chain of frames;
* `Chain.rebind?_isSome` — a name can be rebound exactly when it can be looked up.
-/

namespace DialogueScript

/-- Names with their values, in the order in which the names were first bound. -/
abbrev Bindings := List (String × Value)

namespace Bindings

def get? : Bindings → String → Option Value
  | [], _ => none
  | (m, v) :: rest, n => if m = n then some v else get? rest n

def set : Bindings → String → Value → Bindings
  | [], n, v => [(n, v)]
  | (m, w) :: rest, n, v => if m = n then (n, v) :: rest else (m, w) :: set rest n v

/-- Sets several bindings, one after the other. -/
def setAll (bs new : Bindings) : Bindings := new.foldl (fun bs b => bs.set b.1 b.2) bs

/-- The bindings in the order of their names. -/
def sorted (bs : Bindings) : Bindings := bs.mergeSort fun a b => decide (a.1 ≤ b.1)

theorem get?_set (bs : Bindings) (n m : String) (v : Value) :
    (bs.set n v).get? m = if n = m then some v else bs.get? m := by
  induction bs with
  | nil => simp [set, get?]
  | cons b bs ih =>
    obtain ⟨k, w⟩ := b
    by_cases hk : k = n
    · subst hk
      by_cases hm : k = m <;> simp [set, get?, hm]
    · by_cases hm : k = m
      · subst hm
        simp [set, get?, hk, Ne.symm hk]
      · simp [set, get?, hk, hm, ih]

end Bindings

structure Frame where
  name : String := "anonymous"
  bindings : Bindings := []
  deriving DecidableEq

def Frame.set (f : Frame) (n : String) (v : Value) : Frame :=
  { f with bindings := f.bindings.set n v }

namespace Chain

/-- The value of a name, from the innermost frame outwards.  Model of `Scope.get`. -/
def lookup : List Frame → String → Option Value
  | [], _ => none
  | f :: fs, n => match f.bindings.get? n with
    | some v => some v
    | none => lookup fs n

/-- The frames with a new value in the innermost frame that binds the name, if one does.  Model of
`Scope.update`. -/
def rebind? : List Frame → String → Value → Option (List Frame)
  | [], _, _ => none
  | f :: fs, n, v => match f.bindings.get? n with
    | some _ => some (f.set n v :: fs)
    | none => (rebind? fs n v).map (f :: ·)

theorem rebind?_isSome (fs : List Frame) (n : String) (v : Value) :
    (rebind? fs n v).isSome = (lookup fs n).isSome := by
  induction fs with
  | nil => rfl
  | cons f fs ih =>
    cases h : f.bindings.get? n <;> simp [rebind?, lookup, h, ih]

/-- Rebinding keeps the number of frames. -/
theorem length_of_rebind? {fs gs : List Frame} {n : String} {v : Value}
    (h : rebind? fs n v = some gs) : gs.length = fs.length := by
  induction fs generalizing gs with
  | nil => simp [rebind?] at h
  | cons f fs ih =>
    unfold rebind? at h
    split at h
    · simp only [Option.some.injEq] at h
      subst h
      rfl
    · obtain ⟨gs', h', rfl⟩ := Option.map_eq_some_iff.mp h
      simp [ih h']

end Chain

end DialogueScript
