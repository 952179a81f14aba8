import Mathlib
import DialogueScript.Proofs.Executions
import DialogueScript.Scope.History

/-!
# Leaving frames

With merging scopes, leaving a frame carries its bindings outwards as far as the frames outside show
something else.  Values that are the same are not carried, and there are two that are the same and
not equal: zero and negative zero.

* `Value.OppositeZeros` — one value is zero, the other negative zero;
* `Value.eq_or_oppositeZeros_of_same` — no other values are the same without being equal;
* `Environment.HidesZero` — the innermost frame binds a name to one zero, and the frames outside
  show the other;
* `Environment.lookup_pop_iff` — exactly such names show something else when the frame is left;
* `History.run_keeps` — scopes and values are treated the same all through a history, and its
  frames stay proper;
* `History.get_pop_iff` — **what a name shows stays when a frame is left, unless it is a zero that
  hides the other one**.
-/

namespace DialogueScript

/-- One of the values is zero, the other one is negative zero. -/
def Value.OppositeZeros (v w : Value) : Prop :=
  (v = .number 0 ∧ w = .number (-0)) ∨ (v = .number (-0) ∧ w = .number 0)

theorem Value.OppositeZeros.ne {v w : Value} (h : v.OppositeZeros w) : v ≠ w := by
  have hzeros : (0 : Float) ≠ -0 := by decide
  rcases h with ⟨rfl, rfl⟩ | ⟨rfl, rfl⟩
  · exact fun heq => hzeros (Value.number.inj heq)
  · exact fun heq => hzeros (Value.number.inj heq).symm

/-- No value is the same as another one, but zero and negative zero. -/
theorem Value.eq_or_oppositeZeros_of_same {v w : Value} (h : v.same w = true) :
    v = w ∨ v.OppositeZeros w := by
  cases v with
  | text s =>
    cases w with
    | text t => exact .inl (congrArg Value.text (Value.same_text.mp h))
    | number y => cases h
  | number x =>
    cases w with
    | text t => cases h
    | number y =>
      -- of the modules of Mathlib only the whole library has this lemma about floats
      obtain ⟨-, -, rfl | ⟨rfl, rfl⟩ | ⟨rfl, rfl⟩⟩ := Float.beq_iff_ne_nan_and_eq.mp h
      · exact .inl rfl
      · exact .inr (.inl ⟨rfl, rfl⟩)
      · exact .inr (.inr ⟨rfl, rfl⟩)

theorem Value.OppositeZeros.same {v w : Value} (h : v.OppositeZeros w) : v.same w = true := by
  have hzeros : ((0 : Float) == -0) = true ∧ ((-0 : Float) == 0) = true := by decide
  rcases h with ⟨rfl, rfl⟩ | ⟨rfl, rfl⟩
  · exact hzeros.1
  · exact hzeros.2

namespace Environment

/-- The innermost frame binds the name to one zero, and the frames outside show the other one. -/
def HidesZero (e : Environment) (n : String) : Prop :=
  ∃ v w, e.top.bindings.get? n = some v ∧ Chain.lookup e.below n = some w ∧ w.OppositeZeros v

/-- When the innermost frame is left, a zero that hides the other one gives way to it. -/
theorem lookup_pop_of_hidesZero {e : Environment} {p : Popped} {n : String} (h : e.pop? = some p)
    (hmerge : e.scoping = .merge) (htop : e.top.bindings.names.Nodup) (hzero : e.HidesZero n) :
    p.env.lookup n = Chain.lookup e.below n := by
  obtain ⟨v, w, hv, hw, hopposite⟩ := hzero
  rw [lookup_pop_eq h hmerge htop, hv, hw]
  simp [hopposite.same, Option.filter]

/-- What a name shows stays when a frame is left, unless it is a zero that hides the other one. -/
theorem lookup_pop_iff {e : Environment} {p : Popped} (h : e.pop? = some p)
    (hmerge : e.scoping = .merge) (htop : e.top.bindings.names.Nodup) (n : String) :
    p.env.lookup n = e.lookup n ↔ ¬ e.HidesZero n := by
  have he : e.lookup n = (e.top.bindings.get? n).or (Chain.lookup e.below n) :=
    Chain.lookup_cons _ _ _
  constructor
  · intro hsame hzero
    rw [lookup_pop_of_hidesZero h hmerge htop hzero, he] at hsame
    obtain ⟨v, w, hv, hw, hopposite⟩ := hzero
    rw [hv, hw, Option.some_or] at hsame
    exact hopposite.ne (Option.some.inj hsame)
  · intro hzero
    rw [lookup_pop_eq h hmerge htop, he]
    cases hv : e.top.bindings.get? n with
    | none => rfl
    | some v =>
      cases hw : Chain.lookup e.below n with
      | none => rfl
      | some w =>
        by_cases heq : w.same v = true
        · rcases Value.eq_or_oppositeZeros_of_same heq with rfl | hopposite
          · simp [heq, Option.filter]
          · exact absurd ⟨v, w, hv, hw, hopposite⟩ hzero
        · simp [heq, Option.filter]

/-- Texts are no zeros. -/
theorem not_hidesZero_of_texts {e : Environment} (h : e.Proper fun v => v.isNumber = false)
    (n : String) : ¬ e.HidesZero n := by
  rintro ⟨v, w, hv, -, hopposite⟩
  have htext : v.isNumber = false :=
    (h e.top List.mem_cons_self).values (n, v) (Bindings.mem_of_get? hv)
  rcases hopposite with ⟨-, rfl⟩ | ⟨-, rfl⟩
  · cases htext
  · cases htext

end Environment

namespace History

/-- The innermost frame is left in `pop` and in `leave`. -/
theorem popWith_keeps {kind : Value → Prop} (h : History) (answer : Popped → Answer)
    (hproper : h.env.Proper kind) :
    (h.popWith answer).2.env.scoping = h.env.scoping ∧
      (h.popWith answer).2.env.storage = h.env.storage ∧
      (h.popWith answer).2.env.Proper kind := by
  unfold popWith
  split
  · rename_i p hp
    obtain ⟨hscoping, hstorage⟩ := Environment.pop_modes hp
    exact ⟨hscoping, hstorage, Environment.proper_pop hproper hp⟩
  · exact ⟨rfl, rfl, hproper⟩

/-- A use changes neither how scopes nor how values are treated, and leaves all frames proper. -/
theorem step_keeps {kind : Value → Prop} (h : History) (u : Use)
    (hkind : ∀ v, kind (h.env.stored v)) (hproper : h.env.Proper kind) :
    (h.step u).2.env.scoping = h.env.scoping ∧ (h.step u).2.env.storage = h.env.storage ∧
      (h.step u).2.env.Proper kind := by
  cases u with
  | define n v => exact ⟨rfl, rfl, Environment.proper_define hproper n (hkind v)⟩
  | assign n v =>
    unfold step
    dsimp only
    split
    · rename_i env hassign
      obtain ⟨hscoping, hstorage⟩ := Environment.assign_modes hassign
      exact ⟨hscoping, hstorage, Environment.proper_assign hproper hassign (hkind v)⟩
    · exact ⟨rfl, rfl, hproper⟩
  | lookup n =>
    unfold step
    dsimp only
    split <;> exact ⟨rfl, rfl, hproper⟩
  | get n =>
    unfold step
    dsimp only
    split <;> exact ⟨rfl, rfl, hproper⟩
  | push name => exact ⟨rfl, rfl, Environment.proper_push hproper name⟩
  | pop => exact popWith_keeps h _ hproper
  | enter name => exact ⟨rfl, rfl, Environment.proper_push hproper name⟩
  | leave =>
    unfold step
    dsimp only
    split
    · exact ⟨rfl, rfl, hproper⟩
    · exact popWith_keeps _ _ hproper
  | fail =>
    unfold step
    dsimp only
    split
    · exact ⟨rfl, rfl, hproper⟩
    · rename_i depth sections _
      obtain ⟨hscoping, hstorage⟩ := Environment.unwindTo_modes h.env depth
      exact ⟨hscoping, hstorage, Environment.proper_unwindTo hproper depth⟩

/-- And so does a whole history. -/
theorem run_keeps {kind : Value → Prop} (us : List Use) (h : History)
    (hkind : ∀ v, kind (h.env.stored v)) (hproper : h.env.Proper kind) :
    (h.run us).env.scoping = h.env.scoping ∧ (h.run us).env.storage = h.env.storage ∧
      (h.run us).env.Proper kind := by
  induction us generalizing h with
  | nil => exact ⟨rfl, rfl, hproper⟩
  | cons u us ih =>
    obtain ⟨hscoping, hstorage, hnext⟩ := step_keeps h u hkind hproper
    have hkind' : ∀ v, kind ((h.step u).2.env.stored v) := by
      intro v
      have hv := hkind v
      rwa [Environment.stored, ← hstorage] at hv
    obtain ⟨hscopings, hstorages, hlast⟩ := ih (h.step u).2 hkind' hnext
    exact ⟨hscopings.trans hscoping, hstorages.trans hstorage, hlast⟩

/-- What a look-up answers tells what is bound. -/
theorem step_get_eq_iff {h h' : History} {n : String} :
    (h.step (.get n)).1 = (h'.step (.get n)).1 ↔ h.env.lookup n = h'.env.lookup n := by
  unfold step
  dsimp only
  cases h.env.lookup n <;> cases h'.env.lookup n <;> simp

/-- A history with merging scopes, before the first use. -/
def merging (storage : Storage) : History := { env := { scoping := .merge, storage } }

/-- **What a name shows stays when a frame is left, unless it is a zero that hides the other one.**
After any sequence of uses with merging scopes, leaving a frame that is not the outermost one
changes the answer about a name exactly when the frame binds the name to zero and the frames outside
show negative zero, or the other way round; then the answer is what the frames outside showed.  If
values are kept as texts no answer changes. -/
theorem get_pop_iff (storage : Storage) (us : List Use) (n : String)
    (hdepth : 1 < ((merging storage).run us).env.depth) :
    ((((((merging storage).run us).step .pop).2.step (.get n)).1 =
        (((merging storage).run us).step (.get n)).1 ↔
      ¬ ((merging storage).run us).env.HidesZero n)) ∧
    (((merging storage).run us).env.HidesZero n →
      (((merging storage).run us).step .pop).2.env.lookup n =
        Chain.lookup ((merging storage).run us).env.below n) ∧
    (storage = .text → ¬ ((merging storage).run us).env.HidesZero n) := by
  have hempty (kind : Value → Prop) : (merging storage).env.Proper kind := by
    intro f hf
    obtain rfl := List.mem_singleton.mp hf
    exact .empty "global"
  obtain ⟨hmerge, hstorage, hproper⟩ :=
    run_keeps us (merging storage) (fun _ => trivial) (hempty fun _ => True)
  have htext : storage = .text → ¬ ((merging storage).run us).env.HidesZero n := by
    rintro rfl
    have htexts : ∀ v, ((merging .text).env.stored v).isNumber = false := fun _ => rfl
    exact Environment.not_hidesZero_of_texts (run_keeps us _ htexts (hempty _)).2.2 n
  rw [step_get_eq_iff]
  generalize (merging storage).run us = h at hdepth hmerge hproper htext ⊢
  have htop : h.env.top.bindings.names.Nodup := (hproper h.env.top List.mem_cons_self).nodup
  obtain ⟨p, hp⟩ : ∃ p, h.env.pop? = some p := by
    unfold Environment.pop?
    unfold Environment.depth at hdepth
    cases hbelow : h.env.below with
    | nil =>
      rw [hbelow] at hdepth
      cases Nat.lt_irrefl 1 hdepth
    | cons outer rest => exact ⟨_, rfl⟩
  have hstep : (h.step .pop).2.env = p.env := by
    unfold step popWith
    dsimp only
    rw [hp]
  rw [hstep]
  exact ⟨Environment.lookup_pop_iff hp hmerge htop n,
    Environment.lookup_pop_of_hidesZero hp hmerge htop, htext⟩

/-- A zero becomes negative inside a block. -/
def lostZeroSample : List Use :=
  [.define "x" (.number 0), .push "block", .assign "x" (.number (-0))]

/-- The negative zero is lost when the block ends. -/
theorem get_pop_lostZeroSample :
    (((merging .tagged).run lostZeroSample).step (.get "x")).1 = .value (.number (-0)) ∧
      ((((merging .tagged).run lostZeroSample).step .pop).2.step (.get "x")).1 =
        .value (.number 0) ∧
      (0 : Float).toBits ≠ (-0 : Float).toBits := by
  decide

/-- Two names are given new values inside a block. -/
def keptSample : List Use :=
  [.define "x" (.number 0), .define "y" (.number 1), .push "block", .assign "x" (.number (-0)),
    .assign "y" (.text "1")]

theorem get_pop_keptSample :
    1 < ((merging .tagged).run keptSample).env.depth ∧
      ((((merging .tagged).run keptSample).step .pop).2.step (.get "y")).1 =
        (((merging .tagged).run keptSample).step (.get "y")).1 ∧
      ((((merging .tagged).run keptSample).step .pop).2.step (.get "x")).1 ≠
        (((merging .tagged).run keptSample).step (.get "x")).1 := by
  have hdepth : 1 < ((merging .tagged).run keptSample).env.depth := by decide
  refine ⟨hdepth, ((get_pop_iff .tagged keptSample "y" hdepth).1).mpr ?_,
    mt ((get_pop_iff .tagged keptSample "x" hdepth).1).mp ?_⟩
  · rintro ⟨v, w, hv, hw, hopposite⟩
    cases hv
    rcases hopposite with ⟨-, h⟩ | ⟨-, h⟩
    · cases h
    · cases h
  · exact fun h => h ⟨.number (-0), .number 0, rfl, rfl, .inl ⟨rfl, rfl⟩⟩

end History

end DialogueScript
