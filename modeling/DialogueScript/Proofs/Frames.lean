import DialogueScript.Scope.Environment

/-!
# What frames show

* `Bindings.get?_setAll` — what a name is bound to after several bindings were set;
* `Chain.lookup_cons` — a chain shows what its first frame binds, and else what the rest shows;
* `Environment.lookup_define`, `Environment.lookup_push` — what an environment shows after a
  declaration and in a new frame;
* `Environment.lookup_pop_eq` — with merging scopes, what is shown when a frame has been left;
* `Environment.lookup_pop` — it is what was shown before, as far as values that are the same are
  equal;
* `Environment.frames_unwindTo`, `Environment.unwindTo_depth` — dropping the frames above a depth
  gives back the frames below.

`Frame.Proper` frames bind no name twice and only values of a given kind; `Environment.Proper`
environments are kept by every use (`proper_define`, `proper_assign`, `proper_push`, `proper_pop`,
`proper_unwindTo`).
-/

namespace DialogueScript

namespace Bindings

/-- The names that are bound. -/
def names (bs : Bindings) : List String := bs.map (·.1)

theorem get?_eq_none_iff {bs : Bindings} {n : String} : bs.get? n = none ↔ n ∉ bs.names := by
  induction bs with
  | nil => simp [get?, names]
  | cons b bs ih =>
    obtain ⟨m, v⟩ := b
    by_cases hm : m = n
    · simp [get?, names, hm]
    · simpa [get?, names, hm, Ne.symm hm] using ih

theorem mem_of_get? {bs : Bindings} {n : String} {v : Value} (h : bs.get? n = some v) :
    (n, v) ∈ bs := by
  induction bs with
  | nil => simp [get?] at h
  | cons b bs ih =>
    obtain ⟨m, w⟩ := b
    by_cases hm : m = n
    · simp only [get?, hm, if_true, Option.some.injEq] at h
      simp [hm, h]
    · simp only [get?, hm, if_false] at h
      exact List.mem_cons_of_mem _ (ih h)

theorem names_set (bs : Bindings) (n : String) (v : Value) :
    (bs.set n v).names = if n ∈ bs.names then bs.names else bs.names ++ [n] := by
  induction bs with
  | nil => rfl
  | cons b bs ih =>
    obtain ⟨m, w⟩ := b
    by_cases hm : m = n
    · simp [set, names, hm]
    · have hcons : names (set ((m, w) :: bs) n v) = m :: names (set bs n v) := by
        simp [set, names, hm]
      rw [hcons, ih]
      by_cases hn : n ∈ names bs
      · simp only [names, List.mem_map, List.map_cons, List.mem_cons] at hn ⊢
        simp [hn]
      · simp only [names, List.mem_map, List.map_cons, List.mem_cons] at hn ⊢
        simp [hn, Ne.symm hm]

theorem nodup_set {bs : Bindings} (h : bs.names.Nodup) (n : String) (v : Value) :
    (bs.set n v).names.Nodup := by
  rw [names_set]
  split
  · exact h
  · rename_i hn
    exact List.nodup_append.mpr ⟨h, by simp, by
      rintro m hm _ hn' rfl
      rw [List.mem_singleton] at hn'
      exact hn (hn' ▸ hm)⟩

theorem mem_set {bs : Bindings} {n : String} {v : Value} {b : String × Value}
    (h : b ∈ bs.set n v) : b ∈ bs ∨ b = (n, v) := by
  induction bs with
  | nil => exact .inr (List.mem_singleton.mp h)
  | cons c bs ih =>
    obtain ⟨m, w⟩ := c
    by_cases hm : m = n
    · simp only [set, hm, if_true, List.mem_cons] at h
      rcases h with h | h
      · exact .inr h
      · exact .inl (List.mem_cons_of_mem _ h)
    · simp only [set, hm, if_false, List.mem_cons] at h
      rcases h with h | h
      · exact .inl (by simp [h])
      · exact (ih h).imp_left (List.mem_cons_of_mem _)

/-- Of bindings without a name twice, the last one for a name is the first one. -/
theorem get?_setAll (bs : Bindings) {new : Bindings} (hnew : new.names.Nodup) (n : String) :
    (bs.setAll new).get? n = (new.get? n).or (bs.get? n) := by
  induction new generalizing bs with
  | nil => rfl
  | cons b new ih =>
    obtain ⟨m, v⟩ := b
    simp only [names, List.map_cons, List.nodup_cons] at hnew
    have hcons : bs.setAll ((m, v) :: new) = (bs.set m v).setAll new := rfl
    rw [hcons, ih (bs.set m v) hnew.2, get?_set]
    by_cases hm : m = n
    · subst hm
      have hnone : get? new m = none := get?_eq_none_iff.mpr hnew.1
      simp [get?, hnone]
    · simp [get?, hm]

theorem nodup_setAll {bs : Bindings} (h : bs.names.Nodup) (new : Bindings) :
    (bs.setAll new).names.Nodup := by
  induction new generalizing bs with
  | nil => exact h
  | cons b new ih => exact ih (nodup_set h b.1 b.2)

theorem mem_setAll {bs new : Bindings} {b : String × Value} (h : b ∈ bs.setAll new) :
    b ∈ bs ∨ b ∈ new := by
  induction new generalizing bs with
  | nil => exact .inl h
  | cons c new ih =>
    rcases ih h with h | h
    · exact (mem_set h).imp_right fun h => by simp [h]
    · exact .inr (List.mem_cons_of_mem _ h)

theorem get?_filter {bs : Bindings} (hbs : bs.names.Nodup) (p : String × Value → Bool)
    (n : String) : get? (bs.filter p) n = (bs.get? n).filter fun v => p (n, v) := by
  induction bs with
  | nil => rfl
  | cons b bs ih =>
    obtain ⟨m, v⟩ := b
    simp only [names, List.map_cons, List.nodup_cons] at hbs
    by_cases hm : m = n
    · subst hm
      have hnone : get? bs m = none := get?_eq_none_iff.mpr hbs.1
      by_cases hp : p (m, v)
      · simp [get?, hp, Option.filter]
      · simp [get?, hp, ih hbs.2, hnone, Option.filter]
    · by_cases hp : p (m, v)
      · simp [get?, hp, hm, ih hbs.2]
      · simp [get?, hp, hm, ih hbs.2]

theorem nodup_filter {bs : Bindings} (h : bs.names.Nodup) (p : String × Value → Bool) :
    names (bs.filter p) |>.Nodup :=
  List.Nodup.sublist (List.Sublist.map _ List.filter_sublist) h

end Bindings

/-- A frame that binds no name twice, and only values of a kind. -/
structure Frame.Proper (kind : Value → Prop) (f : Frame) : Prop where
  nodup : f.bindings.names.Nodup
  values : ∀ b ∈ f.bindings, kind b.2

namespace Frame.Proper

variable {kind : Value → Prop}

theorem empty (name : String) : Frame.Proper kind { name } := ⟨List.nodup_nil, by simp⟩

theorem set {f : Frame} (h : f.Proper kind) (n : String) {v : Value} (hv : kind v) :
    (f.set n v).Proper kind := by
  refine ⟨Bindings.nodup_set h.nodup n v, fun b hb => ?_⟩
  rcases Bindings.mem_set hb with hb | rfl
  · exact h.values b hb
  · exact hv

theorem setAll {f : Frame} (h : f.Proper kind) {new : Bindings} (hnew : ∀ b ∈ new, kind b.2) :
    Frame.Proper kind { f with bindings := f.bindings.setAll new } := by
  refine ⟨Bindings.nodup_setAll h.nodup new, fun b hb => ?_⟩
  rcases Bindings.mem_setAll hb with hb | hb
  · exact h.values b hb
  · exact hnew b hb

end Frame.Proper

theorem Chain.proper_rebind {kind : Value → Prop} {fs gs : List Frame} {n : String} {v : Value}
    (h : Chain.rebind? fs n v = some gs) (hfs : ∀ f ∈ fs, f.Proper kind) (hv : kind v) :
    ∀ g ∈ gs, g.Proper kind := by
  induction fs generalizing gs with
  | nil => simp [Chain.rebind?] at h
  | cons f fs ih =>
    have hf := hfs f (by simp)
    have hrest : ∀ g ∈ fs, g.Proper kind := fun g hg => hfs g (List.mem_cons_of_mem _ hg)
    unfold Chain.rebind? at h
    split at h
    · cases h
      intro g hg
      rcases List.mem_cons.mp hg with rfl | hg
      · exact hf.set n hv
      · exact hrest g hg
    · obtain ⟨gs', h', rfl⟩ := Option.map_eq_some_iff.mp h
      intro g hg
      rcases List.mem_cons.mp hg with rfl | hg
      · exact hf
      · exact ih h' hrest g hg

theorem Chain.lookup_cons (f : Frame) (fs : List Frame) (n : String) :
    Chain.lookup (f :: fs) n = (f.bindings.get? n).or (Chain.lookup fs n) := by
  rw [Chain.lookup]
  cases f.bindings.get? n <;> rfl

theorem Chain.exists_mem_of_lookup {fs : List Frame} {n : String} {v : Value}
    (h : Chain.lookup fs n = some v) : ∃ f ∈ fs, (n, v) ∈ f.bindings := by
  induction fs with
  | nil => simp [Chain.lookup] at h
  | cons f fs ih =>
    unfold Chain.lookup at h
    split at h
    · rename_i hget
      cases h
      exact ⟨f, by simp, Bindings.mem_of_get? hget⟩
    · obtain ⟨g, hg, hb⟩ := ih h
      exact ⟨g, List.mem_cons_of_mem _ hg, hb⟩

namespace Environment

theorem lookup_define (e : Environment) (n m : String) (v : Value) :
    (e.define n v).lookup m = if n = m then some (e.stored v) else e.lookup m := by
  have h : (e.define n v).lookup m =
      ((e.top.bindings.set n (e.stored v)).get? m).or (Chain.lookup e.below m) :=
    Chain.lookup_cons _ _ _
  rw [h, Bindings.get?_set]
  split
  · rfl
  · exact (Chain.lookup_cons _ _ _).symm

theorem lookup_push (e : Environment) (name n : String) : (e.push name).lookup n = e.lookup n :=
  Chain.lookup_cons _ _ _

/-- With merging scopes, what is shown when a frame has been left: what the frame binds, unless the
frames outside show the same. -/
theorem lookup_pop_eq {e : Environment} {p : Popped} (h : e.pop? = some p)
    (hmerge : e.scoping = .merge) (htop : e.top.bindings.names.Nodup) (n : String) :
    p.env.lookup n = (e.top.bindings.get? n).elim (Chain.lookup e.below n) fun v =>
      some (((Chain.lookup e.below n).filter (·.same v)).getD v) := by
  unfold pop? at h
  split at h
  · cases h
  · rename_i outer rest hbelow
    simp only [hmerge, Option.some.injEq] at h
    subst h
    have hcarried : e.changed.names.Nodup := Bindings.nodup_filter htop _
    have hlookup : Chain.lookup e.below n = (outer.bindings.get? n).or (Chain.lookup rest n) := by
      rw [hbelow, Chain.lookup_cons]
    rw [lookup, frames, Chain.lookup_cons]
    simp only
    rw [Bindings.get?_setAll _ hcarried, Option.or_assoc, ← hlookup]
    unfold changed
    rw [Bindings.get?_filter htop]
    cases e.top.bindings.get? n with
    | none => rfl
    | some v =>
      cases hw : Chain.lookup e.below n with
      | none => simp [hw]
      | some w => by_cases heq : w.same v = true <;> simp [hw, heq, Option.filter]

/-- So what is shown stays when a frame is left, as far as values that are the same are equal. -/
theorem lookup_pop {e : Environment} {p : Popped} (h : e.pop? = some p)
    (hmerge : e.scoping = .merge) (htop : e.top.bindings.names.Nodup)
    (hsame : ∀ n v w, e.top.bindings.get? n = some v → Chain.lookup e.below n = some w →
      w.same v = true → w = v) (n : String) : p.env.lookup n = e.lookup n := by
  have he : e.lookup n = (e.top.bindings.get? n).or (Chain.lookup e.below n) :=
    Chain.lookup_cons _ _ _
  rw [lookup_pop_eq h hmerge htop, he]
  cases hv : e.top.bindings.get? n with
  | none => rfl
  | some v =>
    cases hw : Chain.lookup e.below n with
    | none => rfl
    | some w =>
      by_cases heq : w.same v = true
      · obtain rfl := hsame n v w hv hw heq
        simp [heq, Option.filter]
      · simp [heq, Option.filter]

/-- Dropping the frames above a depth that is one less drops the innermost frame. -/
theorem frames_unwindTo {e e' : Environment} (h : e'.below.length = e.depth) :
    (e'.unwindTo e.depth).frames = e'.below := by
  have hdrop : e'.frames.drop (e'.depth - e.depth) = e'.below := by
    have hone : e'.depth - e.depth = 1 := by
      rw [← h]
      unfold depth
      omega
    rw [hone]
    rfl
  unfold unwindTo
  rw [hdrop]
  split
  · rename_i hnil
    rw [hnil] at h
    cases h
  · rename_i top below hcons
    rw [hcons]
    rfl

theorem unwindTo_depth {e e' : Environment} (h : e'.below = e.frames) :
    (e'.unwindTo e.depth).frames = e.frames := by
  rw [← h]
  exact frames_unwindTo (congrArg List.length h)

/-! ## Proper environments -/

/-- All frames are proper. -/
def Proper (kind : Value → Prop) (e : Environment) : Prop := ∀ f ∈ e.frames, f.Proper kind

variable {kind : Value → Prop} {e : Environment}

theorem proper_define (h : e.Proper kind) (n : String) {v : Value} (hv : kind (e.stored v)) :
    (e.define n v).Proper kind := by
  intro f hf
  rcases List.mem_cons.mp hf with rfl | hf
  · exact (h e.top (by simp [frames])).set n hv
  · exact h f (List.mem_cons_of_mem _ hf)

theorem proper_assign {e' : Environment} {n : String} {v : Value} (h : e.Proper kind)
    (hassign : e.assign? n v = some e') (hv : kind (e.stored v)) : e'.Proper kind := by
  unfold assign? at hassign
  split at hassign
  · cases hassign
    exact proper_define h n hv
  · split at hassign
    · rename_i top below hrebind
      cases hassign
      exact Chain.proper_rebind hrebind h hv
    · cases hassign

theorem proper_push (h : e.Proper kind) (name : String) : (e.push name).Proper kind := by
  intro f hf
  rcases List.mem_cons.mp hf with rfl | hf
  · exact .empty name
  · exact h f hf

theorem proper_pop {p : Popped} (h : e.Proper kind) (hpop : e.pop? = some p) :
    p.env.Proper kind := by
  unfold pop? at hpop
  split at hpop
  · cases hpop
  · rename_i outer rest hbelow
    cases hpop
    intro f hf
    rcases List.mem_cons.mp hf with rfl | hf
    · refine (h outer (by simp [frames, hbelow])).setAll fun b hb => ?_
      split at hb
      · simp at hb
      · exact (h e.top (by simp [frames])).values b (List.mem_filter.mp hb).1
    · exact h f (by simp [frames, hbelow, hf])

theorem proper_unwindTo (h : e.Proper kind) (depth : Nat) : (e.unwindTo depth).Proper kind := by
  unfold unwindTo
  split
  · exact h
  · rename_i top below heq
    intro f hf
    have hdrop : f ∈ e.frames.drop (e.depth - depth) := by
      rw [heq]
      exact hf
    exact h f (List.mem_of_mem_drop hdrop)

end Environment

end DialogueScript
