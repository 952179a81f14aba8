import Mathlib.Logic.Basic
import Mathlib.Logic.Relation
import DialogueScript.Proofs.Frames
import DialogueScript.Scope.Forest

/-!
# What an assignment changes in a forest

Scopes share the scopes around them, so an assignment in one scope shows in others.  It shows in
those from which the scope that was changed is the nearest one to look in, and nowhere else.

* `Forest.Rooted` — every scope lies in one that was made before it; every use keeps that;
* `Forest.On`, `Forest.Nearest` — a scope on a chain, and the nearest one of a kind;
* `Forest.holder?_eq_some_iff`, `Forest.get?_of_nearest` — looking up and rebinding a name stop at
  the same scope, the nearest one that binds it;
* `Forest.changes_set` — setting a name that is bound changes this binding, and no other one;
* `Forest.shows_set` — what all scopes show when a name has been set in one of them;
* `Forest.update_effect` — **what updating and setting a name in one scope does to all scopes**.
-/

namespace DialogueScript

/-- Setting a name that is bound gives the first binding of the name its new value. -/
theorem Bindings.exists_set_eq {bs : Bindings} {n : String} (h : n ∈ bs.names) (v : Value) :
    ∃ pre w post, bs = pre ++ (n, w) :: post ∧ n ∉ pre.names ∧
      bs.set n v = pre ++ (n, v) :: post := by
  induction bs with
  | nil => cases h
  | cons b bs ih =>
    obtain ⟨m, w⟩ := b
    by_cases hm : m = n
    · subst hm
      exact ⟨[], w, bs, rfl, List.not_mem_nil, by simp [set]⟩
    · have hn : n ∈ names bs := by
        rcases List.mem_cons.mp h with hn | hn
        · exact absurd hn.symm hm
        · exact hn
      obtain ⟨pre, u, post, rfl, hpre, hset⟩ := ih hn
      refine ⟨(m, w) :: pre, u, post, rfl, ?_, by simp [set, hm, hset]⟩
      intro hmem
      rcases List.mem_cons.mp hmem with rfl | hmem
      · exact hm rfl
      · exact hpre hmem

namespace Forest

/-- The scope around a scope. -/
def parent? (f : Forest) (i : Nat) : Option Nat := f.scopes[i]?.bind (·.parent)

/-- Every scope but a root lies in a scope that was made before it. -/
def Rooted (f : Forest) : Prop := ∀ i j, f.parent? i = some j → j < i

/-- Scope `k` is scope `i` or one of those around it. -/
def On (f : Forest) : Nat → Nat → Prop := Relation.ReflTransGen fun i j => f.parent? i = some j

/-- The scope itself binds the name. -/
def Binds (f : Forest) (i : Nat) (n : String) : Prop := n ∈ (f.frameAt i).bindings.names

instance (f : Forest) (i : Nat) (n : String) : Decidable (f.Binds i n) :=
  inferInstanceAs (Decidable (n ∈ (f.frameAt i).bindings.names))

/-- From scope `i` outwards, scope `k` is the first one in question. -/
inductive Nearest (f : Forest) (wanted : Nat → Prop) : Nat → Nat → Prop
  | here {i : Nat} (hi : wanted i) : Nearest f wanted i i
  | outward {i j k : Nat} (hi : ¬ wanted i) (hparent : f.parent? i = some j)
      (h : Nearest f wanted j k) : Nearest f wanted i k

/-- All that is bound is the same but for one binding: that of name `n` in scope `k`, which had a
value before and has the value `v` now. -/
structure Changes (f g : Forest) (k : Nat) (n : String) (v : Value) : Prop where
  others : ∀ j ≠ k, g.scopes[j]? = f.scopes[j]?
  binding : ∃ s pre w post, f.scopes[k]? = some s ∧ s.frame.bindings = pre ++ (n, w) :: post ∧
    n ∉ pre.names ∧
    g.scopes[k]? = some { s with frame := { s.frame with bindings := pre ++ (n, v) :: post } }

/-- The scopes in question show the value `v` for name `n`; everything else is shown as before. -/
structure Shows (f g : Forest) (n : String) (v : Value) (seen : Nat → Prop) : Prop where
  new : ∀ t, seen t → g.get? t n = some v
  old : ∀ t m, ¬ (m = n ∧ seen t) → g.get? t m = f.get? t m

variable {f : Forest}

/-! ## Rooted forests

The first scope is a root, a new scope lies in one that is there already, and setting and updating
names leaves the scopes where they are; so every forest that comes about is rooted. -/

theorem rooted_iff : f.Rooted ↔ ∀ i < f.scopes.length, ∀ j ∈ f.parent? i, j < i := by
  constructor
  · exact fun h i _ j hj => h i j hj
  · intro h i j hj
    obtain ⟨s, hs, -⟩ := Option.bind_eq_some_iff.mp hj
    exact h i (List.getElem?_eq_some_iff.mp hs).1 j hj

instance : Decidable f.Rooted := decidable_of_iff' _ rooted_iff

theorem rooted_empty : Rooted {} := by decide

theorem Rooted.new (hf : f.Rooted) {parent : Option Nat}
    (hparent : ∀ j ∈ parent, j < f.scopes.length) (name : String) :
    (f.new parent name).2.Rooted := by
  intro i j hj
  rcases Nat.lt_trichotomy i f.scopes.length with hlt | rfl | hgt
  · rw [parent?, Forest.new, List.getElem?_append_left hlt] at hj
    exact hf i j hj
  · rw [parent?, Forest.new, List.getElem?_concat_length] at hj
    exact hparent j hj
  · rw [parent?, Forest.new, List.getElem?_eq_none (by simp; omega)] at hj
    cases hj

/-! ## Chains -/

theorem Rooted.induction (hf : f.Rooted) {motive : Nat → Prop}
    (h : ∀ i, (∀ j, f.parent? i = some j → motive j) → motive i) (i : Nat) : motive i := by
  induction i using Nat.strongRecOn with
  | ind i ih => exact h i fun j hj => ih j (hf i j hj)

/-- The steps never run out, as the numbers go down. -/
theorem chainFrom_eq_of_lt {i steps steps' : Nat} (h : i < steps) (h' : i < steps') :
    f.chainFrom steps i = f.chainFrom steps' i := by
  induction i using Nat.strongRecOn generalizing steps steps' with
  | ind i ih =>
    obtain ⟨steps, rfl⟩ := Nat.exists_eq_add_of_lt h
    obtain ⟨steps', rfl⟩ := Nat.exists_eq_add_of_lt h'
    rw [chainFrom, chainFrom]
    cases f.scopes[i]? with
    | none => rfl
    | some s =>
      dsimp only
      cases s.parent with
      | none => rfl
      | some j =>
        dsimp only
        split
        · rename_i hlt
          exact congrArg (i :: ·) (ih j hlt (by omega) (by omega))
        · rfl

theorem chain_of_missing {i : Nat} (h : f.scopes[i]? = none) : f.chain i = [] := by
  rw [chain, chainFrom, h]

/-- A chain goes on with the chain of the scope around. -/
theorem chain_of_scope (hf : f.Rooted) {i : Nat} {s : Scope} (h : f.scopes[i]? = some s) :
    f.chain i = i :: (f.parent? i).elim [] f.chain := by
  have hparent : f.parent? i = s.parent := by rw [parent?, h, Option.bind_some]
  rw [chain, chainFrom, h, hparent]
  dsimp only
  cases hs : s.parent with
  | none => rfl
  | some j =>
    have hlt : j < i := hf i j (hparent.trans hs)
    dsimp only
    rw [if_pos hlt, chainFrom_eq_of_lt hlt (Nat.lt_succ_self j)]
    rfl

theorem parent?_of_missing {i : Nat} (h : f.scopes[i]? = none) : f.parent? i = none := by
  rw [parent?, h, Option.bind_none]

theorem frameAt_of_missing {i : Nat} (h : f.scopes[i]? = none) : f.frameAt i = {} := by
  rw [frameAt, h, Option.map_none, Option.getD_none]

/-- What is seen from a scope is what it binds, and else what is seen from the scope around. -/
theorem get?_eq (hf : f.Rooted) (i : Nat) (n : String) :
    f.get? i n = ((f.frameAt i).bindings.get? n).or ((f.parent? i).bind (f.get? · n)) := by
  unfold get? frames
  cases hi : f.scopes[i]? with
  | none =>
    rw [chain_of_missing hi, parent?_of_missing hi, frameAt_of_missing hi]
    rfl
  | some s =>
    rw [chain_of_scope hf hi, List.map_cons, Chain.lookup_cons]
    cases f.parent? i <;> rfl

theorem isSome_get?_iff {i : Nat} {n : String} :
    ((f.frameAt i).bindings.get? n).isSome = true ↔ f.Binds i n := by
  rw [Option.isSome_iff_ne_none, ne_eq, Bindings.get?_eq_none_iff, not_not]
  rfl

theorem Binds.exists_scope {i : Nat} {n : String} (h : f.Binds i n) :
    ∃ s, f.scopes[i]? = some s ∧ n ∈ s.frame.bindings.names := by
  cases hi : f.scopes[i]? with
  | none =>
    rw [Binds, frameAt_of_missing hi] at h
    cases h
  | some s =>
    rw [Binds, frameAt, hi, Option.map_some, Option.getD_some] at h
    exact ⟨s, rfl, h⟩

theorem holder?_of_binds (hf : f.Rooted) {i : Nat} {n : String} (h : f.Binds i n) :
    f.holder? i n = some i := by
  obtain ⟨s, hi, -⟩ := h.exists_scope
  simp only [holder?, chain_of_scope hf hi, List.find?_cons, isSome_get?_iff.mpr h]

theorem holder?_of_not_binds (hf : f.Rooted) {i : Nat} {n : String} (h : ¬ f.Binds i n) :
    f.holder? i n = (f.parent? i).bind (f.holder? · n) := by
  have hbound : ((f.frameAt i).bindings.get? n).isSome = false :=
    Bool.eq_false_iff.mpr (isSome_get?_iff.not.mpr h)
  unfold holder?
  cases hi : f.scopes[i]? with
  | none =>
    rw [chain_of_missing hi, parent?_of_missing hi]
    rfl
  | some s =>
    simp only [chain_of_scope hf hi, List.find?_cons, hbound]
    cases f.parent? i <;> rfl

/-! ## The nearest scope -/

section Nearest

variable {wanted : Nat → Prop} {i k : Nat}

theorem Nearest.unique {m : Nat} (h : f.Nearest wanted i k) (h' : f.Nearest wanted i m) :
    k = m := by
  induction h with
  | here hi =>
    cases h' with
    | here => rfl
    | outward hnot => exact absurd hi hnot
  | outward hnot hparent _ ih =>
    cases h' with
    | here hi => exact absurd hi hnot
    | outward _ hparent' h' =>
      cases hparent.symm.trans hparent'
      exact ih h'

theorem Nearest.on (h : f.Nearest wanted i k) : f.On i k := by
  induction h with
  | here => exact .refl
  | outward _ hparent _ ih => exact .head hparent ih

theorem Nearest.holds (h : f.Nearest wanted i k) : wanted k := by
  induction h with
  | here hi => exact hi
  | outward _ _ _ ih => exact ih

/-- A scope and the scopes around it were made one before the other. -/
theorem On.le (h : f.On i k) (hf : f.Rooted) : k ≤ i := by
  induction h with
  | refl => exact Nat.le_refl i
  | tail _ hparent ih => exact Nat.le_trans (Nat.le_of_lt (hf _ _ hparent)) ih

/-- If any scope on a chain is in question, one of them is the nearest. -/
theorem On.exists_nearest (h : f.On i k) (hk : wanted k) : ∃ m, f.Nearest wanted i m := by
  induction h using Relation.ReflTransGen.head_induction_on with
  | refl => exact ⟨k, .here hk⟩
  | @head i j hparent _ ih =>
    by_cases hi : wanted i
    · exact ⟨i, .here hi⟩
    · obtain ⟨m, hm⟩ := ih
      exact ⟨m, .outward hi hparent hm⟩

/-- The nearest scope depends on the parents and on the scopes in question only. -/
theorem Nearest.congr {g : Forest} {wanted' : Nat → Prop}
    (hparent : ∀ i, g.parent? i = f.parent? i) (hwanted : ∀ i, wanted i ↔ wanted' i)
    (h : f.Nearest wanted i k) : g.Nearest wanted' i k := by
  induction h with
  | here hi => exact .here ((hwanted _).mp hi)
  | outward hi hlink _ ih =>
    exact .outward ((hwanted _).not.mp hi) ((hparent _).trans hlink) ih

end Nearest

/-- Rebinding a name stops at the nearest scope that binds it. -/
theorem holder?_eq_some_iff (hf : f.Rooted) {i k : Nat} {n : String} :
    f.holder? i n = some k ↔ f.Nearest (f.Binds · n) i k := by
  constructor
  · intro h
    induction i using hf.induction with
    | h i ih =>
      by_cases hi : f.Binds i n
      · rw [holder?_of_binds hf hi] at h
        cases h
        exact .here hi
      · rw [holder?_of_not_binds hf hi] at h
        obtain ⟨j, hparent, hj⟩ := Option.bind_eq_some_iff.mp h
        exact .outward hi hparent (ih j hparent hj)
  · intro h
    induction h with
    | here hi => exact holder?_of_binds hf hi
    | outward hi hparent _ ih => rw [holder?_of_not_binds hf hi, hparent, Option.bind_some, ih]

/-- Looking a name up stops at the nearest scope that binds it, too. -/
theorem get?_of_nearest (hf : f.Rooted) {i k : Nat} {n : String}
    (h : f.Nearest (f.Binds · n) i k) : f.get? i n = (f.frameAt k).bindings.get? n := by
  induction h with
  | here hi =>
    obtain ⟨v, hv⟩ := Option.isSome_iff_exists.mp (isSome_get?_iff.mpr hi)
    rw [get?_eq hf, hv, Option.some_or]
  | outward hi hparent _ ih =>
    rw [get?_eq hf, Bindings.get?_eq_none_iff.mpr hi, Option.none_or, hparent, Option.bind_some,
      ih]

/-! ## Setting a name -/

section Set

variable {k : Nat} {n : String} {v : Value}

theorem getElem?_set_of_ne {j : Nat} (h : j ≠ k) : (f.set k n v).scopes[j]? = f.scopes[j]? :=
  List.getElem?_modify_ne _ _ h.symm

theorem getElem?_set_self :
    (f.set k n v).scopes[k]? = f.scopes[k]?.map fun s => { s with frame := s.frame.set n v } :=
  List.getElem?_modify_eq _ _ _

theorem parent?_set (i : Nat) : (f.set k n v).parent? i = f.parent? i := by
  unfold parent?
  by_cases hi : i = k
  · rw [hi, getElem?_set_self, Option.bind_map]
    rfl
  · rw [getElem?_set_of_ne hi]

theorem frameAt_set_of_ne {j : Nat} (h : j ≠ k) : (f.set k n v).frameAt j = f.frameAt j := by
  rw [frameAt, getElem?_set_of_ne h, frameAt]

theorem frameAt_set_self (hk : k < f.scopes.length) :
    (f.set k n v).frameAt k = (f.frameAt k).set n v := by
  rw [frameAt, getElem?_set_self, frameAt, List.getElem?_eq_getElem hk]
  rfl

theorem binds_set_iff (hk : k < f.scopes.length) {j : Nat} :
    (f.set k n v).Binds j n ↔ j = k ∨ f.Binds j n := by
  by_cases hj : j = k
  · subst hj
    rw [Binds, frameAt_set_self hk, Frame.set, Bindings.names_set]
    split <;> simp_all
  · rw [Binds, frameAt_set_of_ne hj, or_iff_right hj, Binds]

theorem Rooted.set (hf : f.Rooted) : (f.set k n v).Rooted := by
  intro i j h
  rw [parent?_set] at h
  exact hf i j h

/-- A name that is set in a scope is seen from where this scope is the nearest one that binds it
or is set. -/
theorem get?_set_of_nearest (hf : f.Rooted) (hk : k < f.scopes.length) {t : Nat}
    (h : f.Nearest (fun j => j = k ∨ f.Binds j n) t k) : (f.set k n v).get? t n = some v := by
  have hnearest : (f.set k n v).Nearest ((f.set k n v).Binds · n) t k :=
    h.congr parent?_set fun _ => (binds_set_iff hk).symm
  rw [get?_of_nearest hf.set hnearest, frameAt_set_self hk, Frame.set, Bindings.get?_set,
    if_pos rfl]

/-- Everything else is seen as before. -/
theorem get?_set_of_not_nearest (hf : f.Rooted) (hk : k < f.scopes.length) {t : Nat} {m : String}
    (h : ¬ (m = n ∧ f.Nearest (fun j => j = k ∨ f.Binds j n) t k)) :
    (f.set k n v).get? t m = f.get? t m := by
  induction t using hf.induction with
  | h t ih =>
    rw [get?_eq hf.set, get?_eq hf, parent?_set]
    have hown : ((f.set k n v).frameAt t).bindings.get? m = (f.frameAt t).bindings.get? m := by
      by_cases ht : t = k
      · subst ht
        have hm : n ≠ m := fun e => h ⟨e.symm, .here (.inl rfl)⟩
        rw [frameAt_set_self hk, Frame.set, Bindings.get?_set, if_neg hm]
      · rw [frameAt_set_of_ne ht]
    rw [hown]
    cases hv : (f.frameAt t).bindings.get? m with
    | some w => rfl
    | none =>
      cases hparent : f.parent? t with
      | none => rfl
      | some j =>
        refine ih j hparent ?_
        -- seen from the scope around, it would be seen from here too
        rintro ⟨rfl, hj⟩
        refine h ⟨rfl, .outward ?_ hparent hj⟩
        rintro (rfl | hbinds)
        · exact h ⟨rfl, .here (.inl rfl)⟩
        · exact Bindings.get?_eq_none_iff.mp hv hbinds

/-- Setting a name that is bound puts the new value in the place of the old one. -/
theorem changes_set (h : f.Binds k n) : f.Changes (f.set k n v) k n v where
  others _ hj := getElem?_set_of_ne hj
  binding := by
    obtain ⟨s, hk, hmem⟩ := h.exists_scope
    obtain ⟨pre, w, post, hbindings, hpre, hset⟩ := Bindings.exists_set_eq hmem v
    refine ⟨s, pre, w, post, hk, hbindings, hpre, ?_⟩
    rw [getElem?_set_self, hk, Option.map_some, Frame.set, hset]

theorem shows_set (hf : f.Rooted) (hk : k < f.scopes.length) :
    f.Shows (f.set k n v) n v (f.Nearest (fun j => j = k ∨ f.Binds j n) · k) :=
  ⟨fun _ => get?_set_of_nearest hf hk, fun _ _ => get?_set_of_not_nearest hf hk⟩

/-- A scope that binds the name already is the nearest one from the same scopes as before. -/
theorem shows_set_of_binds (hf : f.Rooted) (h : f.Binds k n) :
    f.Shows (f.set k n v) n v (f.Nearest (f.Binds · n) · k) := by
  obtain ⟨s, hk, -⟩ := h.exists_scope
  have hwanted (j : Nat) : (j = k ∨ f.Binds j n) ↔ f.Binds j n := by
    refine or_iff_right_of_imp ?_
    rintro rfl
    exact h
  have hshows : f.Shows (f.set k n v) n v _ := shows_set hf (List.getElem?_eq_some_iff.mp hk).1
  simpa only [hwanted] using hshows

end Set

/-! ## Rebinding a name -/

theorem update_of_nearest (hf : f.Rooted) {i k : Nat} {n : String}
    (h : f.Nearest (f.Binds · n) i k) (v : Value) : f.update i n v = (true, f.set k n v) := by
  rw [update, update?, (holder?_eq_some_iff hf).mpr h, Option.map_some]

theorem update_of_not_bound (hf : f.Rooted) {i : Nat} {n : String}
    (h : ∀ k, f.On i k → ¬ f.Binds k n) (v : Value) : f.update i n v = (false, f) := by
  have hholder : f.holder? i n = none := by
    rw [Option.eq_none_iff_forall_ne_some]
    intro k hk
    have hnearest := (holder?_eq_some_iff hf).mp hk
    exact h k hnearest.on hnearest.holds
  rw [update, update?, hholder, Option.map_none]

theorem Rooted.update (hf : f.Rooted) (i : Nat) (n : String) (v : Value) :
    (f.update i n v).2.Rooted := by
  unfold Forest.update update?
  cases f.holder? i n with
  | none => exact hf
  | some k => exact hf.set

/-- **What an assignment does to a forest.**  Updating a name in scope `i` succeeds exactly if some
scope on its chain binds it.  Then this binding changes in the nearest of them and no other one
does, and the new value is seen from where this scope is the nearest one that binds the name, and
nowhere else; if it does not succeed, nothing changes.  Setting a name in scope `i` is seen from
where `i` is reached before any other scope that binds the name, and nowhere else. -/
theorem update_effect (hf : f.Rooted) {i : Nat} (hi : i < f.scopes.length) (n : String)
    (v : Value) :
    ((f.update i n v).1 = true ↔ ∃ k, f.On i k ∧ f.Binds k n) ∧
    ((f.update i n v).1 = true → ∃ k, f.Nearest (f.Binds · n) i k ∧
      f.Changes (f.update i n v).2 k n v ∧
      f.Shows (f.update i n v).2 n v (f.Nearest (f.Binds · n) · k)) ∧
    ((f.update i n v).1 = false → (f.update i n v).2 = f) ∧
    f.Shows (f.set i n v) n v (f.Nearest (fun j => j = i ∨ f.Binds j n) · i) := by
  by_cases h : ∃ k, f.On i k ∧ f.Binds k n
  · obtain ⟨k, hon, hbinds⟩ := h
    obtain ⟨m, hm⟩ : ∃ m, f.Nearest (f.Binds · n) i m := hon.exists_nearest hbinds
    rw [update_of_nearest hf hm]
    exact ⟨⟨fun _ => ⟨k, hon, hbinds⟩, fun _ => rfl⟩,
      fun _ => ⟨m, hm, changes_set hm.holds, shows_set_of_binds hf hm.holds⟩, nofun,
      shows_set hf hi⟩
  · have hnone : ∀ k, f.On i k → ¬ f.Binds k n := fun k hon hbinds => h ⟨k, hon, hbinds⟩
    rw [update_of_not_bound hf hnone]
    exact ⟨⟨nofun, fun hk => absurd hk h⟩, nofun, fun _ => rfl, shows_set hf hi⟩

/-- Two scopes in a root, one of which hides what the root binds, with a scope in each of them. -/
def familySample : Forest :=
  ⟨[⟨{ bindings := [("x", .text "outer")] }, none⟩, ⟨{}, some 0⟩,
    ⟨{ bindings := [("y", .text "other"), ("x", .text "inner")] }, some 0⟩, ⟨{}, some 1⟩,
    ⟨{}, some 2⟩]⟩

theorem update_effect_familySample :
    familySample.Rooted ∧ 3 < familySample.scopes.length ∧
      (familySample.update 3 "x" (.text "new")).1 = true ∧
      familySample.Changes (familySample.update 3 "x" (.text "new")).2 0 "x" (.text "new") ∧
      (familySample.update 3 "x" (.text "new")).2.get? 1 "x" = some (.text "new") ∧
      (familySample.update 3 "x" (.text "new")).2.get? 4 "x" = some (.text "inner") ∧
      (familySample.set 3 "x" (.text "new")).get? 3 "x" = some (.text "new") ∧
      (familySample.set 3 "x" (.text "new")).get? 1 "x" = some (.text "outer") := by
  have hrooted : familySample.Rooted := by decide
  have hthree : 3 < familySample.scopes.length := by decide
  obtain ⟨hfound, hupdate, -, hset⟩ := update_effect hrooted hthree "x" (.text "new")
  have htrue := hfound.mpr ⟨0, .head rfl (.head rfl .refl), by decide⟩
  obtain ⟨k, hk, hchanges, hshows⟩ := hupdate htrue
  obtain rfl : 0 = k := ((holder?_eq_some_iff hrooted).mp (by decide)).unique hk
  refine ⟨hrooted, hthree, htrue, hchanges, ?_, ?_, ?_, ?_⟩
  · exact hshows.new 1 ((holder?_eq_some_iff hrooted).mp (by decide))
  · have hhidden : ¬ familySample.Nearest (familySample.Binds · "x") 4 0 :=
      (holder?_eq_some_iff hrooted).not.mp (by decide)
    exact (hshows.old 4 "x" fun h => hhidden h.2).trans (by decide)
  · exact hset.new 3 (.here (.inl rfl))
  · have hupwards : ¬ familySample.Nearest (fun j => j = 3 ∨ familySample.Binds j "x") 1 3 := by
      intro h
      exact absurd (h.on.le hrooted) (by decide)
    exact (hset.old 1 "x" fun h => hupwards h.2).trans (by decide)

end Forest

end DialogueScript
