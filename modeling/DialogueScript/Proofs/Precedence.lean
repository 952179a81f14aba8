import Mathlib.Data.List.Nodup
import DialogueScript.Document.Content
import DialogueScript.Proofs.Acceptance
import DialogueScript.Settings.Sources

/-!
# Where the settings of a run come from

Each option has the value that the highest source gives it: what is given for the run hides the
environment, and the environment hides the settings file.  All sources are checked, also where a
higher one hides them.

* `Layer.Gives` — a layer gives an option a value that is not null;
* `Layer.Wrong`, `Layer.Unshown` — an entry that is refused, and one that cannot even be shown;
* `Settings.withLayer_cons_cases` — all that one entry can do;
* `Settings.withLayer_error_iff`, `Settings.withLayer_first`, `Settings.withLayer_choice` — what a
  layer does: it is refused for its first wrong entry, and without one it decides its options;
* `Sources.Decides` — what is chosen for an option by the highest source that gives it a value;
* `Settings.resolve_sources` — **the settings of a run are refused exactly for a wrong entry, and
  each option is decided by the highest source that gives it a value**.
-/

namespace DialogueScript

theorem Key.ofPlain?_eq_some_iff {p : Plain} {k : Key} :
    ofPlain? p = some k ↔ p = .text k.word := by
  constructor
  · intro h
    cases p with
    | text w => exact congrArg Plain.text ((Chosen.find?_word_eq_some_iff ofPlain?_word).mp h)
    | _ => cases h
  · rintro rfl
    exact ofPlain?_word k

theorem Key.word_injective {k k' : Key} (h : k.word = k'.word) : k = k' := by
  have hk := ofPlain?_word k
  rw [h, ofPlain?_word] at hk
  exact (Option.some.inj hk).symm

namespace Layer

/-- The layer gives the option a value other than null. -/
def Gives (l : Layer) (k : Key) (p : Plain) : Prop := (.text k.word, p) ∈ l ∧ p ≠ .null

/-- The entry names no option, or gives one a value that it does not accept. -/
def Wrong (e : Plain × Plain) : Prop :=
  (∀ k : Key, e.1 ≠ .text k.word) ∨
    ∃ k : Key, e.1 = .text k.word ∧ e.2 ≠ .null ∧ ∀ c, ¬ k.Accepts e.2 c

/-- The entry cannot be shown: its name cannot, or the value of an option. -/
def Unshown (e : Plain × Plain) : Prop :=
  e.1.hasText = false ∨ (∃ k : Key, e.1 = .text k.word) ∧ e.2.hasText = false

variable {k : Key} {p : Plain} {c : Chosen}

/-- What a longer layer gives, it gives in its first entry or further on. -/
theorem gives_cons {e : Plain × Plain} {l : Layer} :
    Gives (e :: l) k p ↔ (e = (.text k.word, p) ∧ p ≠ .null) ∨ l.Gives k p := by
  unfold Gives
  rw [List.mem_cons, or_and_right]
  exact or_congr_left (and_congr_left' eq_comm)

theorem gives_perm {l l' : Layer} (h : l.Perm l') : l.Gives k p ↔ l'.Gives k p :=
  and_congr_left' h.mem_iff

/-- A layer that names no option twice gives each at most one value. -/
theorem gives_unique {l : Layer} {q : Plain} (hl : (l.map (·.1)).Nodup) (hp : l.Gives k p)
    (hq : l.Gives k q) : p = q :=
  (Prod.ext_iff.mp (List.inj_on_of_nodup_map hl hp.1 hq.1 rfl)).2

theorem not_wrong_of_null : ¬ Wrong (.text k.word, .null) := by
  rintro (h | ⟨k', -, hnull, -⟩)
  · exact h k rfl
  · exact hnull rfl

theorem not_wrong_of_accepts (h : k.Accepts p c) : ¬ Wrong (.text k.word, p) := by
  rintro (hk | ⟨k', hk, -, hnot⟩)
  · exact hk k rfl
  · obtain rfl := Key.word_injective (Plain.text.inj hk)
    exact hnot c h

end Layer

namespace Settings

theorem put_error {s : Settings} {k : Key} {p : Plain} {f : LayerFault}
    (h : s.put k p = .error f) : f = .noText ↔ p.hasText = false := by
  unfold put at h
  cases hp : p.hasText with
  | false =>
    rw [hp] at h
    cases h
    simp
  | true =>
    rw [hp] at h
    refine iff_of_false (fun hf => ?_) (by decide)
    subst hf
    -- a value with a text is refused with a fault that shows it
    cases k with
    | _ =>
      dsimp only at h
      split at h
      · cases h
      · cases h

/-- An entry that is not null is put, and the rest goes on top of it. -/
theorem withLayer_cons_of_ne_null (s : Settings) (k : Key) {found : Plain} (l : Layer)
    (hnull : found ≠ .null) : s.withLayer ((.text k.word, found) :: l) =
      match s.put k found with
      | .ok s' => s'.withLayer l
      | .error f => .error f := by
  rw [withLayer, Key.ofPlain?_word]
  cases found with
  | null => exact absurd rfl hnull
  | _ => rfl

/-- All that one entry of a layer can do. -/
theorem withLayer_cons_cases (s : Settings) (e : Plain × Plain) (l : Layer) :
    (Layer.Wrong e ∧ ∃ f, s.withLayer (e :: l) = .error f ∧ (f = .noText ↔ Layer.Unshown e)) ∨
    (∃ k : Key, e = (.text k.word, .null) ∧ s.withLayer (e :: l) = s.withLayer l) ∨
    ∃ k p c, e = (.text (Key.word k), p) ∧ p ≠ .null ∧ k.Accepts p c ∧
      s.withLayer (e :: l) = (s.choose c).withLayer l := by
  obtain ⟨key, found⟩ := e
  cases hkey : Key.ofPlain? key with
  | none =>
    have hunknown (k : Key) : key ≠ .text k.word := by
      rintro rfl
      rw [Key.ofPlain?_word] at hkey
      cases hkey
    have hstep : s.withLayer ((key, found) :: l) =
        .error (if key.hasText then .unknownKey key else .noText) := by
      rw [withLayer, hkey]
    refine .inl ⟨.inl hunknown, _, hstep, ?_⟩
    unfold Layer.Unshown
    simp only [hunknown, exists_false, false_and, or_false]
    cases key.hasText with
    | false => simp
    | true => simp
  | some k =>
    obtain rfl := Key.ofPlain?_eq_some_iff.mp hkey
    by_cases hnull : found = .null
    · subst hnull
      exact .inr (.inl ⟨k, rfl, by rw [withLayer, hkey]⟩)
    · cases hput : s.put k found with
      | ok r =>
        obtain ⟨c, hc, rfl⟩ := put_eq_ok_iff.mp hput
        refine .inr (.inr ⟨k, found, c, rfl, hnull, hc, ?_⟩)
        rw [withLayer_cons_of_ne_null s k l hnull, hput]
      | error f =>
        have hstep : s.withLayer ((.text k.word, found) :: l) = .error f := by
          rw [withLayer_cons_of_ne_null s k l hnull, hput]
        refine .inl ⟨.inr ⟨k, rfl, hnull, fun c hc => ?_⟩, f, hstep, ?_⟩
        · rw [put_eq_ok_iff.mpr ⟨c, hc, rfl⟩] at hput
          cases hput
        · have htext : (Plain.text k.word).hasText = true := rfl
          rw [put_error hput]
          unfold Layer.Unshown
          simp [htext]

/-- A layer is refused exactly for a wrong entry. -/
theorem withLayer_error_iff (s : Settings) (l : Layer) :
    (∃ f, s.withLayer l = .error f) ↔ ∃ e ∈ l, Layer.Wrong e := by
  induction l generalizing s with
  | nil => simp [withLayer]
  | cons e l ih =>
    rcases s.withLayer_cons_cases e l with
      ⟨hwrong, f, hf, -⟩ | ⟨k, rfl, hstep⟩ | ⟨k, p, c, rfl, -, hc, hstep⟩
    · exact iff_of_true ⟨f, hf⟩ ⟨e, List.mem_cons_self, hwrong⟩
    · rw [hstep, ih]
      simp [Layer.not_wrong_of_null]
    · rw [hstep, ih]
      simp [Layer.not_wrong_of_accepts hc]

/-- Its first wrong entry decides whether the fault can be shown. -/
theorem withLayer_first {s : Settings} {l : Layer} {f : LayerFault}
    (h : s.withLayer l = .error f) :
    ∃ before e after, l = before ++ e :: after ∧ (∀ b ∈ before, ¬ Layer.Wrong b) ∧
      Layer.Wrong e ∧ (f = .noText ↔ Layer.Unshown e) := by
  induction l generalizing s with
  | nil => cases h
  | cons e l ih =>
    have hnext {s' : Settings} (hstep : s.withLayer (e :: l) = s'.withLayer l)
        (he : ¬ Layer.Wrong e) : ∃ before e' after, e :: l = before ++ e' :: after ∧
        (∀ b ∈ before, ¬ Layer.Wrong b) ∧ Layer.Wrong e' ∧ (f = .noText ↔ Layer.Unshown e') := by
      rw [hstep] at h
      obtain ⟨before, e', after, rfl, hbefore, hlast⟩ := ih h
      exact ⟨e :: before, e', after, rfl, List.forall_mem_cons.mpr ⟨he, hbefore⟩, hlast⟩
    rcases s.withLayer_cons_cases e l with
      ⟨hwrong, f', hf, hunshown⟩ | ⟨k, rfl, hstep⟩ | ⟨k, p, c, rfl, -, hc, hstep⟩
    · rw [hf] at h
      cases h
      exact ⟨[], e, l, rfl, by simp, hwrong, hunshown⟩
    · exact hnext hstep Layer.not_wrong_of_null
    · exact hnext hstep (Layer.not_wrong_of_accepts hc)

/-- A layer that names no option twice decides the options it gives a value, and no others. -/
theorem withLayer_choice {s r : Settings} {l : Layer} (h : s.withLayer l = .ok r)
    (hkeys : (l.map (·.1)).Nodup) (k : Key) :
    (∀ p, l.Gives k p → k.Accepts p (r.choice k)) ∧
      ((∀ p, ¬ l.Gives k p) → r.choice k = s.choice k) := by
  induction l generalizing s with
  | nil =>
    cases h
    exact ⟨fun p hp => absurd hp.1 List.not_mem_nil, fun _ => rfl⟩
  | cons e l ih =>
    rw [List.map_cons, List.nodup_cons] at hkeys
    obtain ⟨hfresh, hkeys⟩ := hkeys
    rcases s.withLayer_cons_cases e l with
      ⟨-, f, hf, -⟩ | ⟨k', rfl, hstep⟩ | ⟨k', q, c, rfl, hnull, hc, hstep⟩
    · rw [hf] at h
      cases h
    · -- a null entry gives nothing
      have hsame (p : Plain) :
          Layer.Gives ((.text k'.word, .null) :: l) k p ↔ Layer.Gives l k p := by
        refine Layer.gives_cons.trans (or_iff_right ?_)
        rintro ⟨heq, hnull⟩
        exact hnull (Prod.ext_iff.mp heq).2.symm
      simp only [hsame]
      exact ih (hstep.symm.trans h) hkeys
    · obtain ⟨hgiven, habsent⟩ := ih (hstep.symm.trans h) hkeys
      have hchoice := s.choice_choose c k
      rw [hc.key_eq] at hchoice
      by_cases hk : k' = k
      · -- the option is decided here, since it is named nowhere else
        subst hk
        have hnone (p : Plain) : ¬ Layer.Gives l k' p := fun hp =>
          hfresh (List.mem_map_of_mem (f := (·.1)) hp.1)
        rw [if_pos rfl] at hchoice
        rw [habsent hnone, hchoice]
        refine ⟨fun p hp => ?_, fun hp => absurd (Layer.gives_cons.mpr (.inl ⟨rfl, hnull⟩)) (hp q)⟩
        rcases Layer.gives_cons.mp hp with ⟨heq, -⟩ | hp
        · obtain rfl : q = p := (Prod.ext_iff.mp heq).2
          exact hc
        · exact absurd hp (hnone p)
      · have hsame (p : Plain) : Layer.Gives ((.text k'.word, q) :: l) k p ↔ Layer.Gives l k p := by
          refine Layer.gives_cons.trans (or_iff_right ?_)
          rintro ⟨heq, -⟩
          exact hk (Key.word_injective (Plain.text.inj (Prod.ext_iff.mp heq).1))
        rw [if_neg hk] at hchoice
        rw [hchoice] at habsent
        simp only [hsame]
        exact ⟨hgiven, habsent⟩

end Settings

namespace Layer

variable {vars : Variables}

theorem mem_ofEnvironment {e : Plain × Plain} :
    e ∈ ofEnvironment vars ↔
      ∃ (k : Key) (w : String), vars.lookup k.environmentName = some w ∧
        e = (.text k.word, .text w) := by
  have hall (k : Key) : k ∈ Key.all := by cases k <;> decide
  unfold ofEnvironment
  simp only [List.mem_filterMap, hall, true_and, Option.map_eq_some_iff]
  exact exists_congr fun k => exists_congr fun w => and_congr_right' eq_comm

/-- Of the environment only the variables of the options count, each for its option. -/
theorem gives_ofEnvironment {k : Key} {p : Plain} :
    (ofEnvironment vars).Gives k p ↔
      ∃ w, vars.lookup k.environmentName = some w ∧ p = .text w := by
  unfold Gives
  rw [mem_ofEnvironment]
  constructor
  · rintro ⟨⟨k', w, hw, heq⟩, -⟩
    obtain ⟨hkey, rfl⟩ := Prod.ext_iff.mp heq
    obtain rfl := Key.word_injective (Plain.text.inj hkey)
    exact ⟨w, hw, rfl⟩
  · rintro ⟨w, hw, rfl⟩
    exact ⟨⟨k, w, hw, rfl⟩, Plain.noConfusion⟩

theorem wrong_ofEnvironment_iff : (∃ e ∈ ofEnvironment vars, Wrong e) ↔
    ∃ (k : Key) (w : String), vars.lookup k.environmentName = some w ∧
      ∀ c, ¬ k.Accepts (.text w) c := by
  constructor
  · rintro ⟨e, he, hwrong⟩
    obtain ⟨k, w, hw, rfl⟩ := mem_ofEnvironment.mp he
    refine ⟨k, w, hw, fun c hc => not_wrong_of_accepts hc hwrong⟩
  · rintro ⟨k, w, hw, hnot⟩
    exact ⟨_, mem_ofEnvironment.mpr ⟨k, w, hw, rfl⟩, .inr ⟨k, rfl, Plain.noConfusion, hnot⟩⟩

theorem nodup_ofEnvironment : ((ofEnvironment vars).map (·.1)).Nodup := by
  unfold ofEnvironment
  rw [List.map_filterMap]
  refine List.Nodup.filterMap (fun k k' key hk hk' => ?_) (by decide : Key.all.Nodup)
  simp only [Option.map_map, Option.mem_def, Option.map_eq_some_iff] at hk hk'
  obtain ⟨w, -, rfl⟩ := hk
  obtain ⟨w', -, heq⟩ := hk'
  exact (Key.word_injective (Plain.text.inj heq)).symm

end Layer

namespace Sources

/-- What is chosen for an option: what is given for the run lies above the environment, the
environment above the settings file, and `base` below them all. -/
inductive Decides (s : Sources) (file : Layer) (base : Settings) (k : Key) : Chosen → Prop
  | given {p : Plain} {c : Chosen} :
    s.overrides.Gives k p → k.Accepts p c → Decides s file base k c
  | environment {w : String} {c : Chosen} :
    (∀ p, ¬ s.overrides.Gives k p) → s.variables.lookup k.environmentName = some w →
    k.Accepts (.text w) c → Decides s file base k c
  | file {p : Plain} {c : Chosen} :
    (∀ p, ¬ s.overrides.Gives k p) → s.variables.lookup k.environmentName = none →
    file.Gives k p → k.Accepts p c → Decides s file base k c
  | base : (∀ p, ¬ s.overrides.Gives k p) → s.variables.lookup k.environmentName = none →
    (∀ p, ¬ file.Gives k p) → Decides s file base k (base.choice k)

/-- If neither names an option twice, there is one choice for each. -/
theorem Decides.unique {s : Sources} {file : Layer} {base : Settings} {k : Key} {c d : Chosen}
    (hfile : (file.map (·.1)).Nodup) (hover : (s.overrides.map (·.1)).Nodup)
    (hc : s.Decides file base k c) (hd : s.Decides file base k d) : c = d := by
  cases hc with
  | given hp hc =>
    cases hd with
    | given hq hd => exact hc.unique (Layer.gives_unique hover hp hq ▸ hd)
    | environment hnone => exact absurd hp (hnone _)
    | file hnone => exact absurd hp (hnone _)
    | base hnone => exact absurd hp (hnone _)
  | environment hnone hw hc =>
    cases hd with
    | given hq => exact absurd hq (hnone _)
    | environment _ hw' hd =>
      rw [hw] at hw'
      exact hc.unique (Option.some.inj hw' ▸ hd)
    | file _ hw' =>
      rw [hw] at hw'
      cases hw'
    | base _ hw' =>
      rw [hw] at hw'
      cases hw'
  | file hnone hw hp hc =>
    cases hd with
    | given hq => exact absurd hq (hnone _)
    | environment _ hw' =>
      rw [hw] at hw'
      cases hw'
    | file _ _ hq hd => exact hc.unique (Layer.gives_unique hfile hp hq ▸ hd)
    | base _ _ hnone' => exact absurd hp (hnone' _)
  | base hnone hw hnone' =>
    cases hd with
    | given hq => exact absurd hq (hnone _)
    | environment _ hw' =>
      rw [hw] at hw'
      cases hw'
    | file _ _ hq => exact absurd hq (hnone' _)
    | base => rfl

/-- In which order a source has its entries does not matter. -/
theorem Decides.of_perm {s s' : Sources} {file file' : Layer} {base : Settings} {k : Key}
    {c : Chosen} (hfile : file'.Perm file)
    (hvars : ∀ n, s'.variables.lookup n = s.variables.lookup n)
    (hover : s'.overrides.Perm s.overrides) (hc : s'.Decides file' base k c) :
    s.Decides file base k c := by
  have hnone (h : ∀ p, ¬ s'.overrides.Gives k p) (p : Plain) : ¬ s.overrides.Gives k p :=
    fun hp => h p ((Layer.gives_perm hover).mpr hp)
  cases hc with
  | given hp hc => exact .given ((Layer.gives_perm hover).mp hp) hc
  | environment h hw hc => exact .environment (hnone h) ((hvars _).symm.trans hw) hc
  | file h hw hp hc =>
    exact .file (hnone h) ((hvars _).symm.trans hw) ((Layer.gives_perm hfile).mp hp) hc
  | base h hw h' =>
    refine .base (hnone h) ((hvars _).symm.trans hw) fun p hp => ?_
    exact h' p ((Layer.gives_perm hfile).mpr hp)

end Sources

namespace Settings

variable {read : String → Document} {look : Path → Entry} {s : Sources}
  {file : Option (Path × Layer)}

/-- The entries of the settings file, if there is one. -/
def fileEntries (file : Option (Path × Layer)) : Layer := (file.map (·.2)).getD []

/-- The entries of all sources, the lowest source first. -/
def sourceEntries (s : Sources) (file : Option (Path × Layer)) : Layer :=
  fileEntries file ++ Layer.ofEnvironment s.variables ++ s.overrides

theorem withLayer_append_eq_ok_iff {base r : Settings} {a b : Layer} :
    base.withLayer (a ++ b) = .ok r ↔ ∃ t, base.withLayer a = .ok t ∧ t.withLayer b = .ok r := by
  rw [withLayer_append]
  cases base.withLayer a <;> simp

/-- The layers of the sources are one layer. -/
theorem resolve_eq (base : Settings) (hfile : s.fileLayer read look = .ok file) :
    base.resolve read look s = (base.withLayer (sourceEntries s file)).mapError .layer := by
  have hlayers (ls : List Layer) (base : Settings) :
      base.withLayers ls = base.withLayer ls.flatten := by
    induction ls generalizing base with
    | nil => rfl
    | cons l ls ih =>
      rw [List.flatten_cons, withLayer_append, withLayers]
      cases base.withLayer l with
      | ok r => exact ih r
      | error f => rfl
  unfold resolve Sources.layers
  rw [hfile]
  dsimp only [Except.map]
  rw [hlayers]
  cases file <;> simp [sourceEntries, fileEntries, Sources.openLayers]

theorem resolve_eq_ok_iff {base r : Settings} (hfile : s.fileLayer read look = .ok file) :
    base.resolve read look s = .ok r ↔ base.withLayer (sourceEntries s file) = .ok r := by
  rw [resolve_eq base hfile]
  cases base.withLayer _ <;> simp [Except.mapError]

theorem resolve_eq_error_iff {base : Settings} {f : SourceFault}
    (hfile : s.fileLayer read look = .ok file) :
    base.resolve read look s = .error f ↔
      ∃ fault, f = .layer fault ∧ base.withLayer (sourceEntries s file) = .error fault := by
  rw [resolve_eq base hfile]
  cases base.withLayer _ <;> simp [Except.mapError, eq_comm]

/-- The sources are refused exactly for a wrong entry in one of them. -/
theorem resolve_refused_iff (base : Settings) (hfile : s.fileLayer read look = .ok file) :
    (∃ f, base.resolve read look s = .error f) ↔
      (∃ e ∈ fileEntries file, Layer.Wrong e) ∨
      (∃ (k : Key) (w : String), s.variables.lookup k.environmentName = some w ∧
        ∀ c, ¬ k.Accepts (.text w) c) ∨
      ∃ e ∈ s.overrides, Layer.Wrong e := by
  have hlayer : (∃ f, base.resolve read look s = .error f) ↔
      ∃ fault, base.withLayer (sourceEntries s file) = .error fault := by
    constructor
    · rintro ⟨f, hf⟩
      obtain ⟨fault, -, hfault⟩ := (resolve_eq_error_iff hfile).mp hf
      exact ⟨fault, hfault⟩
    · rintro ⟨fault, hfault⟩
      exact ⟨_, (resolve_eq_error_iff hfile).mpr ⟨fault, rfl, hfault⟩⟩
  rw [hlayer, withLayer_error_iff, ← Layer.wrong_ofEnvironment_iff]
  simp only [sourceEntries, List.mem_append, or_and_right, exists_or, or_assoc]

/-- Sources that are not refused decide each option. -/
theorem resolve_decides {base r : Settings} (hfile : s.fileLayer read look = .ok file)
    (hkeys : ((fileEntries file).map (·.1)).Nodup) (hover : (s.overrides.map (·.1)).Nodup)
    (h : base.resolve read look s = .ok r) (k : Key) :
    s.Decides (fileEntries file) base k (r.choice k) := by
  rw [resolve_eq_ok_iff hfile] at h
  obtain ⟨inEnvironment, h, ho⟩ := withLayer_append_eq_ok_iff.mp h
  obtain ⟨inFile, hf, he⟩ := withLayer_append_eq_ok_iff.mp h
  obtain ⟨hgiven, hover'⟩ := withLayer_choice ho hover k
  obtain ⟨hset, hunset⟩ := withLayer_choice he Layer.nodup_ofEnvironment k
  obtain ⟨hin, hout⟩ := withLayer_choice hf hkeys k
  by_cases hgives : ∃ p, s.overrides.Gives k p
  · obtain ⟨p, hp⟩ := hgives
    exact .given hp (hgiven p hp)
  rw [not_exists] at hgives
  rw [hover' hgives]
  cases hw : s.variables.lookup k.environmentName with
  | some w =>
    exact .environment hgives hw (hset _ (Layer.gives_ofEnvironment.mpr ⟨w, hw, rfl⟩))
  | none =>
    have hnone (p : Plain) : ¬ (Layer.ofEnvironment s.variables).Gives k p := fun hp => by
      obtain ⟨w, hw', -⟩ := Layer.gives_ofEnvironment.mp hp
      rw [hw] at hw'
      cases hw'
    rw [hunset hnone]
    by_cases hgives' : ∃ p, Layer.Gives (fileEntries file) k p
    · obtain ⟨p, hp⟩ := hgives'
      exact .file hgives hw hp (hin p hp)
    · rw [not_exists] at hgives'
      rw [hout hgives']
      exact .base hgives hw hgives'

/-- **The settings of a run are refused exactly for a wrong entry, and each option is decided by the
highest source that gives it a value.**  A wrong entry counts in every source, also where a higher
source hides it.  The first one decides what is reported, and a message about it is made exactly if
it can be shown.  Settings that come out are the same for any order of the entries in a source. -/
theorem resolve_sources (base : Settings) (hfile : s.fileLayer read look = .ok file)
    (hkeys : ((fileEntries file).map (·.1)).Nodup) (hover : (s.overrides.map (·.1)).Nodup) :
    ((∃ f, base.resolve read look s = .error f) ↔
      (∃ e ∈ fileEntries file, Layer.Wrong e) ∨
      (∃ (k : Key) (w : String), s.variables.lookup k.environmentName = some w ∧
        ∀ c, ¬ k.Accepts (.text w) c) ∨
      ∃ e ∈ s.overrides, Layer.Wrong e) ∧
    (∀ f, base.resolve read look s = .error f → ∃ fault before e after, f = .layer fault ∧
      sourceEntries s file = before ++ e :: after ∧
      (∀ b ∈ before, ¬ Layer.Wrong b) ∧ Layer.Wrong e ∧ (fault = .noText ↔ Layer.Unshown e)) ∧
    (∀ r, base.resolve read look s = .ok r →
      (∀ k, s.Decides (fileEntries file) base k (r.choice k)) ∧
      ∀ (read' : String → Document) (look' : Path → Entry) (s' : Sources)
        (file' : Option (Path × Layer)), s'.fileLayer read' look' = .ok file' →
        (fileEntries file').Perm (fileEntries file) →
        (∀ n, s'.variables.lookup n = s.variables.lookup n) → s'.overrides.Perm s.overrides →
        base.resolve read' look' s' = .ok r) := by
  refine ⟨resolve_refused_iff base hfile, fun f hf => ?_, fun r hr => ⟨?_, ?_⟩⟩
  · obtain ⟨fault, rfl, hfault⟩ := (resolve_eq_error_iff hfile).mp hf
    obtain ⟨before, e, after, hfirst⟩ := withLayer_first hfault
    exact ⟨fault, before, e, after, rfl, hfirst⟩
  · exact resolve_decides hfile hkeys hover hr
  · intro read' look' s' file' hfile' hsame hvars hsame'
    cases hr' : base.resolve read' look' s' with
    | error f =>
      have hnone : ¬ ∃ f, base.resolve read look s = .error f := by
        rw [hr]
        simp
      have hsome := (resolve_refused_iff base hfile').mp ⟨f, hr'⟩
      simp only [hsame.mem_iff, hsame'.mem_iff, hvars] at hsome
      exact absurd ((resolve_refused_iff base hfile).mpr hsome) hnone
    | ok r' =>
      have hkeys' : ((fileEntries file').map (·.1)).Nodup := (hsame.map _).nodup_iff.mpr hkeys
      have hover' : (s'.overrides.map (·.1)).Nodup := (hsame'.map _).nodup_iff.mpr hover
      refine congrArg Except.ok (ext_choice fun k => ?_)
      have hdecides := resolve_decides hfile' hkeys' hover' hr' k
      exact (hdecides.of_perm hsame hvars hsame').unique hkeys hover
        (resolve_decides hfile hkeys hover hr k)

/-- A folder with a settings file. -/
def houseFolder : Folder := ⟨[("house.yml", "scoping: merge\nvalue_storage: text\n")]⟩

/-- What stands in it. -/
def houseFile : Layer := [(.text "scoping", .text "merge"), (.text "value_storage", .text "text")]

/-- Sources of which each gives some option a value. -/
def houseSources : Sources where
  path := some "house.yml"
  «variables» := [("ROBOT_DSL_SCOPING", " Lexical\t")]
  overrides := [(.text "value_storage", .null), (.text "integer_literals", .bool false)]

/-- The environment hides the file, and null hides nothing. -/
def houseSettings : Settings := { scoping := .lexical, storage := .text, integers := false }

theorem resolve_sources_houseSample :
    Settings.resolve {} Document.ofText houseFolder.look houseSources = .ok houseSettings ∧
    (∀ k, houseSources.Decides houseFile {} k (houseSettings.choice k)) ∧
    Settings.resolve {} Document.ofText houseFolder.look
      { houseSources with overrides := houseSources.overrides.reverse } = .ok houseSettings := by
  have hfile : houseSources.fileLayer Document.ofText houseFolder.look =
    .ok (some (Path.ofText "house.yml", houseFile)) := rfl
  have hkeys : ((fileEntries (some (Path.ofText "house.yml", houseFile))).map (·.1)).Nodup := by
    simp [fileEntries, houseFile]
  have hover : (houseSources.overrides.map (·.1)).Nodup := by simp [houseSources]
  have hresolve : Settings.resolve {} Document.ofText houseFolder.look houseSources =
      .ok houseSettings := (resolve_eq_ok_iff hfile).mpr rfl
  obtain ⟨-, -, hdecides⟩ := resolve_sources {} hfile hkeys hover
  obtain ⟨hchoice, horder⟩ := hdecides _ hresolve
  refine ⟨hresolve, hchoice, horder _ _ _ _ hfile (.refl _) (fun _ => rfl) ?_⟩
  exact List.reverse_perm _

/-- An integer with too many digits is given for the scopes. -/
def hugeSources : Sources where
  overrides := [(.text "scoping", .int ((10 ^ Plain.digitLimit : Nat) : Int))]

/-- It is refused, as it must be, but the message cannot be made: the integer cannot be shown. -/
theorem resolve_hugeSample :
    Settings.resolve {} Document.ofText houseFolder.look hugeSources = .error (.layer .noText) ∧
      ∀ e ∈ hugeSources.overrides, Layer.Wrong e := by
  have hhuge : (Plain.int ((10 ^ Plain.digitLimit : Nat) : Int)).hasText = false := by
    rw [Plain.hasText, Int.natAbs_natCast]
    refine decide_eq_false fun hle => ?_
    rw [Nat.length_toDigits_le_iff (by decide) (by decide)] at hle
    exact Nat.lt_irrefl _ hle
  have hput : Settings.put {} .scoping (.int ((10 ^ Plain.digitLimit : Nat) : Int)) =
      .error .noText := by
    unfold put
    rw [hhuge]
  constructor
  · have hfile : hugeSources.fileLayer Document.ofText houseFolder.look = .ok none := rfl
    rw [resolve_eq {} hfile]
    show Except.mapError SourceFault.layer (withLayer {} hugeSources.overrides) = _
    have hkey : Key.ofPlain? (.text "scoping") = some .scoping := Key.ofPlain?_word .scoping
    unfold hugeSources withLayer
    rw [hkey]
    dsimp only
    rw [hput]
    rfl
  · intro e he
    obtain rfl := List.mem_singleton.mp he
    refine .inr ⟨.scoping, rfl, Plain.noConfusion, fun c hc => ?_⟩
    have hshown := (Key.accepts_iff.mp hc).1
    rw [hhuge] at hshown
    cases hshown

end Settings

end DialogueScript
