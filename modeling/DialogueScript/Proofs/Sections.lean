import Mathlib.Data.List.Infix
import DialogueScript.Proofs.Blocks
import DialogueScript.Scope.History

/-!
# The frames of a history

Frames are entered and left by hand and by sections, and the two need not match: a section may leave
its own frame, and those around it, or end with frames of its own still open.

* `History.frameNames` — the names of the frames, the innermost first;
* `History.frameNames_step`, `History.frameNames_run` — a use drops inner frames and may enter one;
  so a history keeps its outermost frame, and all the others were entered in it;
* `Closed` — uses that end the sections they enter, and no others;
* `Rises` — uses that leave all frames there were, with some new frames on top;
* `Environment.frames_unwindTo_eq` — a section that fails drops frames and changes none;
* `Rises.frameNames_run` — uses that rise by nothing end at the depth they began at;
* `History.run_sections` — **the outermost frame stays, a failing section leaves the frames that
  were there before it, and a balanced one ends at the depth it began at**.
-/

namespace DialogueScript

namespace Use

/-- The name of the frame that is entered, if one is. -/
def entered : Use → List String
  | .push name | .enter name => [name]
  | _ => []

/-- Whether a variable is used, and no frame is entered or left. -/
def isVariable : Use → Bool
  | .define .. | .assign .. | .lookup _ | .get _ => true
  | _ => false

/-- Whether a section is entered or ends. -/
def isSection : Use → Bool
  | .enter _ | .leave | .fail => true
  | _ => false

end Use

/-- Uses that end all sections they enter, well or not, and no others. -/
inductive Closed : List Use → Prop
  | nil : Closed []
  | plain {us : List Use} {u : Use} : Closed us → u.isSection = false → Closed (us ++ [u])
  | nested {us body : List Use} {u : Use} (name : String) :
    Closed us → Closed body → u = .leave ∨ u = .fail → Closed (us ++ .enter name :: body ++ [u])

/-- Uses that leave none of the frames that were there before them, and at their end are so many
frames further in.  A section that ends well leaves one frame; one that fails leaves all frames
entered in it. -/
inductive Rises : List Use → Nat → Prop
  | nil : Rises [] 0
  | still {us : List Use} {u : Use} {k : Nat} :
    Rises us k → u.isVariable = true → Rises (us ++ [u]) k
  | push {us : List Use} {k : Nat} (name : String) : Rises us k → Rises (us ++ [.push name]) (k + 1)
  | pop {us : List Use} {k : Nat} : Rises us (k + 1) → Rises (us ++ [.pop]) k
  | leave {us body : List Use} {k j : Nat} (name : String) :
    Rises us k → Rises body j → Rises (us ++ .enter name :: body ++ [.leave]) (k + j)
  | fail {us body : List Use} {k j : Nat} (name : String) :
    Rises us k → Rises body j → Rises (us ++ .enter name :: body ++ [.fail]) k

theorem Rises.closed {us : List Use} {k : Nat} (h : Rises us k) : Closed us := by
  induction h with
  | nil => exact .nil
  | @still us u k _ hu ih =>
    refine .plain ih ?_
    cases u <;> first | rfl | cases hu
  | push name _ ih => exact .plain ih rfl
  | pop _ ih => exact .plain ih rfl
  | leave name _ _ ih ihbody => exact .nested name ih ihbody (.inl rfl)
  | fail name _ _ ih ihbody => exact .nested name ih ihbody (.inr rfl)

namespace Environment

variable {e : Environment}

/-- Dropping the frames above a depth drops the innermost ones and leaves the others untouched. -/
theorem frames_unwindTo_eq {depth : Nat} (hdepth : 0 < depth) :
    (e.unwindTo depth).frames = e.frames.drop (e.depth - depth) := by
  unfold unwindTo
  split
  · rename_i hnil
    have hlength : e.frames.length = e.depth := rfl
    have hall := List.drop_eq_nil_iff.mp hnil
    have hpos : 0 < e.depth := Nat.succ_pos _
    omega
  · rename_i top below hcons
    exact hcons.symm

theorem frames_unwindTo_suffix (e : Environment) (depth : Nat) :
    (e.unwindTo depth).frames <:+ e.frames := by
  unfold unwindTo
  split
  · exact List.suffix_rfl
  · rename_i top below hcons
    show top :: below <:+ e.frames
    rw [← hcons]
    exact List.drop_suffix _ _

theorem pop_eq_none_iff : e.pop? = none ↔ e.depth = 1 := by
  unfold pop? depth
  cases e.below with
  | nil => simp
  | cons outer rest => simp

end Environment

namespace History

variable {h : History}

theorem run_append (h : History) (us vs : List Use) : h.run (us ++ vs) = (h.run us).run vs := by
  induction us generalizing h with
  | nil => rfl
  | cons u us ih => exact ih _

/-- What becomes of the open sections. -/
theorem sections_step (h : History) (u : Use) :
    (h.step u).2.sections = match u with
      | .enter _ => h.env.depth :: h.sections
      | .leave | .fail => h.sections.tail
      | _ => h.sections := by
  have hpop (h : History) (answer : Popped → Answer) :
      (h.popWith answer).2.sections = h.sections := by
    unfold popWith
    split <;> rfl
  cases u with
  | define n v => rfl
  | assign n v =>
    unfold step
    dsimp only
    split <;> rfl
  | lookup n =>
    unfold step
    dsimp only
    split <;> rfl
  | get n =>
    unfold step
    dsimp only
    split <;> rfl
  | push name => rfl
  | pop => exact hpop h _
  | enter name => rfl
  | leave =>
    unfold step
    dsimp only
    split
    · rename_i hnil
      simp [hnil]
    · rename_i hcons
      rw [hpop, hcons]
      rfl
  | fail =>
    unfold step
    dsimp only
    split
    · rename_i hnil
      simp [hnil]
    · rename_i hcons
      rw [hcons]
      rfl

/-- Uses that end the sections they enter leave those that were open. -/
theorem sections_run {us : List Use} (hus : Closed us) (h : History) :
    (h.run us).sections = h.sections := by
  induction hus generalizing h with
  | nil => rfl
  | @plain us u _ hu ih =>
    rw [run_append]
    refine (sections_step _ u).trans ?_
    rw [← ih h]
    cases u <;> first | rfl | cases hu
  | @nested us body u name _ _ hu ih ihbody =>
    rw [run_append, run_append]
    have hinside : (((h.run us).step (.enter name)).2.run body).sections =
        (h.run us).env.depth :: h.sections := by
      rw [ihbody, sections_step, ih]
    refine (sections_step _ u).trans ?_
    rcases hu with rfl | rfl
    · exact congrArg List.tail hinside
    · exact congrArg List.tail hinside

/-- The names of the frames, the innermost first. -/
def frameNames (h : History) : List String := h.env.frames.map (·.name)

theorem length_frameNames (h : History) : h.frameNames.length = h.env.depth := List.length_map _

theorem frameNames_popWith (h : History) (answer : Popped → Answer) :
    (h.popWith answer).2.frameNames =
      if h.env.depth = 1 then h.frameNames else h.frameNames.tail := by
  unfold popWith
  split
  · rename_i p hp
    have hdepth : h.env.depth ≠ 1 := by
      intro hone
      rw [Environment.pop_eq_none_iff.mpr hone] at hp
      cases hp
    rw [if_neg hdepth]
    exact (Environment.frames_pop hp).1
  · rename_i hnone
    rw [if_pos (Environment.pop_eq_none_iff.mp hnone)]

theorem frameNames_of_isVariable {u : Use} (hu : u.isVariable = true) :
    (h.step u).2.frameNames = h.frameNames := by
  cases u with
  | define n v => rfl
  | assign n v =>
    unfold step
    dsimp only
    split
    · rename_i env hassign
      exact Environment.names_assign hassign
    · rfl
  | lookup n =>
    unfold step
    dsimp only
    split <;> rfl
  | get n =>
    unfold step
    dsimp only
    split <;> rfl
  | _ => cases hu

/-- A use that enters no frame drops inner frames, or none. -/
theorem frameNames_suffix {u : Use} (hu : u.entered = []) :
    (h.step u).2.frameNames <:+ h.frameNames := by
  have hpop (h : History) (answer : Popped → Answer) :
      (h.popWith answer).2.frameNames <:+ h.frameNames := by
    rw [frameNames_popWith]
    split
    · exact List.suffix_rfl
    · exact List.tail_suffix _
  by_cases hvariable : u.isVariable = true
  · rw [frameNames_of_isVariable hvariable]
  · cases u with
    | pop => exact hpop h _
    | leave =>
      unfold step
      dsimp only
      split
      · exact List.suffix_rfl
      · exact hpop { h with sections := _ } _
    | fail =>
      unfold step
      dsimp only
      split
      · exact List.suffix_rfl
      · exact (Environment.frames_unwindTo_suffix _ _).map _
    | push name => cases hu
    | enter name => cases hu
    | _ => exact absurd rfl hvariable

/-- The outermost frame stays, and a frame that is new was entered by the use. -/
theorem frameNames_step {inner : List String} {root : String}
    (hnames : h.frameNames = inner ++ [root]) (u : Use) :
    ∃ inner', (h.step u).2.frameNames = inner' ++ [root] ∧ inner' ⊆ u.entered ++ inner := by
  by_cases hu : u.entered = []
  · have hsuffix := frameNames_suffix (h := h) hu
    rw [hnames, List.suffix_concat_iff] at hsuffix
    rcases hsuffix with hnil | ⟨inner', heq, hinner⟩
    · cases hnil
    · exact ⟨inner', heq, hu ▸ hinner.subset⟩
  · cases u with
    | push name => exact ⟨name :: inner, congrArg (name :: ·) hnames, List.Subset.refl _⟩
    | enter name => exact ⟨name :: inner, congrArg (name :: ·) hnames, List.Subset.refl _⟩
    | _ => exact absurd rfl hu

/-- So the outermost frame stays all through a history, and all others were entered in it. -/
theorem frameNames_run (us : List Use) {inner : List String} {root : String}
    (hnames : h.frameNames = inner ++ [root]) :
    ∃ inner', (h.run us).frameNames = inner' ++ [root] ∧
      inner' ⊆ us.flatMap Use.entered ++ inner := by
  induction us generalizing h inner with
  | nil => exact ⟨inner, hnames, List.Subset.refl _⟩
  | cons u us ih =>
    obtain ⟨middle, hmiddle, hfirst⟩ := frameNames_step hnames u
    obtain ⟨inner', hlast, hrest⟩ := ih hmiddle
    refine ⟨inner', hlast, fun n hn => ?_⟩
    rw [List.flatMap_cons, List.append_assoc]
    rcases List.mem_append.mp (hrest hn) with hn | hn
    · exact List.mem_append_right _ (List.mem_append_left _ hn)
    · rcases List.mem_append.mp (hfirst hn) with hn | hn
      · exact List.mem_append_left _ hn
      · exact List.mem_append_right _ (List.mem_append_right _ hn)

/-! ## One section -/

variable {name : String} {body : List Use}

/-- Inside a section, after part of its body or all of it. -/
def within (h : History) (name : String) (body : List Use) : History :=
  (h.step (.enter name)).2.run body

theorem sections_within (hbody : Closed body) (h : History) (name : String) :
    (h.within name body).sections = h.env.depth :: h.sections := by
  unfold within
  rw [sections_run hbody, sections_step]

/-- A section that fails leaves the outermost frames, as many as there were before it and still are,
and changes none of them. -/
theorem fail_within (hbody : Closed body) (h : History) (name : String) :
    ((h.within name body).step .fail).1 = .failed ∧
      ((h.within name body).step .fail).2.env.frames =
        (h.within name body).env.frames.drop ((h.within name body).env.depth - h.env.depth) := by
  have hsections := sections_within hbody h name
  unfold step
  dsimp only
  rw [hsections]
  exact ⟨rfl, Environment.frames_unwindTo_eq (Nat.succ_pos _)⟩

/-- A section that ends well leaves the innermost frame, unless it is the outermost one. -/
theorem leave_within (hbody : Closed body) (h : History) (name : String)
    (hdepth : 1 < (h.within name body).env.depth) :
    ((h.within name body).step .leave).1 = .left ∧
      ((h.within name body).step .leave).2.frameNames = (h.within name body).frameNames.tail := by
  have hsections := sections_within hbody h name
  obtain ⟨p, hp⟩ : ∃ p, (h.within name body).env.pop? = some p := by
    refine Option.ne_none_iff_exists'.mp ?_
    rw [ne_eq, Environment.pop_eq_none_iff]
    omega
  unfold step popWith
  dsimp only
  rw [hsections]
  dsimp only
  rw [hp]
  exact ⟨rfl, (Environment.frames_pop hp).1⟩

end History

/-- Uses that rise by so many frames have put them on top of those that were there. -/
theorem Rises.frameNames_run {us : List Use} {k : Nat} (hus : Rises us k) (h : History) :
    ∃ new, (h.run us).frameNames = new ++ h.frameNames ∧ new.length = k := by
  induction hus generalizing h with
  | nil => exact ⟨[], rfl, rfl⟩
  | @still us u k _ hu ih =>
    obtain ⟨new, hnames, hlength⟩ := ih h
    refine ⟨new, ?_, hlength⟩
    rw [History.run_append]
    exact (History.frameNames_of_isVariable hu).trans hnames
  | push name _ ih =>
    obtain ⟨new, hnames, hlength⟩ := ih h
    refine ⟨name :: new, ?_, congrArg (· + 1) hlength⟩
    rw [History.run_append]
    exact congrArg (name :: ·) hnames
  | @pop us k _ ih =>
    obtain ⟨new, hnames, hlength⟩ := ih h
    obtain ⟨name, new, rfl⟩ := List.exists_cons_of_length_eq_add_one hlength
    refine ⟨new, ?_, Nat.succ_injective hlength⟩
    have hdepth : (h.run us).env.depth ≠ 1 := by
      have := congrArg List.length hnames
      rw [History.length_frameNames, List.length_append, List.length_cons,
        History.length_frameNames] at this
      have : 0 < h.env.depth := Nat.succ_pos _
      omega
    rw [History.run_append]
    refine (History.frameNames_popWith _ _).trans ?_
    rw [if_neg hdepth, hnames]
    rfl
  | @leave us body k j name _ hbody ih ihbody =>
    obtain ⟨new, hnames, hlength⟩ := ih h
    obtain ⟨opened, hinside, hopened⟩ := ihbody ((h.run us).step (.enter name)).2
    replace hinside : ((h.run us).within name body).frameNames =
      opened ++ name :: (h.run us).frameNames := hinside
    have hdepth : 1 < ((h.run us).within name body).env.depth := by
      rw [← History.length_frameNames, hinside, List.length_append, List.length_cons,
        History.length_frameNames]
      have : 0 < (h.run us).env.depth := Nat.succ_pos _
      omega
    have hleave := (History.leave_within hbody.closed (h.run us) name hdepth).2
    rw [hinside, hnames] at hleave
    rw [History.run_append, History.run_append]
    cases opened with
    | nil =>
      refine ⟨new, hleave, ?_⟩
      rw [← hopened, hlength]
      rfl
    | cons first opened =>
      refine ⟨opened ++ name :: new, hleave.trans (by simp), ?_⟩
      rw [← hopened, ← hlength, List.length_append, List.length_cons, List.length_cons]
      omega
  | @fail us body k j name _ hbody ih ihbody =>
    obtain ⟨new, hnames, hlength⟩ := ih h
    obtain ⟨opened, hinside, hopened⟩ := ihbody ((h.run us).step (.enter name)).2
    replace hinside : ((h.run us).within name body).frameNames =
      opened ++ [name] ++ (h.run us).frameNames := by
        rw [List.append_assoc]
        exact hinside
    have hdepth : ((h.run us).within name body).env.depth =
        (opened ++ [name]).length + (h.run us).env.depth := by
      rw [← History.length_frameNames, hinside, List.length_append, History.length_frameNames]
    have hfail := (History.fail_within hbody.closed (h.run us) name).2
    rw [hdepth, Nat.add_sub_cancel] at hfail
    refine ⟨new, ?_, hlength⟩
    rw [History.run_append, History.run_append, ← hnames]
    calc (((h.run us).within name body).step .fail).2.frameNames
        = (((h.run us).within name body).env.frames.drop (opened ++ [name]).length).map (·.name) :=
          congrArg (List.map Frame.name) hfail
      _ = ((h.run us).within name body).frameNames.drop (opened ++ [name]).length := List.map_drop
      _ = (h.run us).frameNames := by rw [hinside, List.drop_left]

namespace History

variable {h : History} {name : String} {body : List Use}

/-- A history before its first use, with a name for its outermost frame. -/
def rooted (scoping : Scoping) (storage : Storage) (root : String) : History :=
  { env := { scoping, storage, top := { name := root } } }

/-- The end of a section leaves the sections around it open. -/
theorem sections_ended (hbody : Closed body) (h : History) (name : String) {u : Use}
    (hu : u = .leave ∨ u = .fail) : ((h.within name body).step u).2.sections = h.sections := by
  refine (sections_step _ u).trans ?_
  rw [sections_within hbody]
  rcases hu with rfl | rfl
  · rfl
  · rfl

/-- The outermost frame is not left, neither by hand nor at the end of a section. -/
theorem step_outermost (hdepth : h.env.depth = 1) :
    h.step .pop = (.outermost, h) ∧ (h.step .leave).2.env = h.env := by
  have hpop := Environment.pop_eq_none_iff.mpr hdepth
  constructor
  · unfold step popWith
    dsimp only
    rw [hpop]
  · unfold step popWith
    dsimp only
    split
    · rfl
    · rw [hpop]

theorem depth_fail_within (hbody : Closed body) (h : History) (name : String) :
    ((h.within name body).step .fail).2.env.depth =
      min h.env.depth (h.within name body).env.depth := by
  have hlength (e : Environment) : e.frames.length = e.depth := rfl
  rw [← hlength, (fail_within hbody h name).2, List.length_drop, hlength]
  omega

/-- Inside a balanced section there are its own frame and the frames that were there before. -/
theorem frameNames_within (hbody : Rises body 0) (h : History) (name : String) :
    (h.within name body).frameNames = name :: h.frameNames := by
  obtain ⟨new, hnames, hnew⟩ := hbody.frameNames_run (h.step (.enter name)).2
  obtain rfl := List.length_eq_zero_iff.mp hnew
  exact hnames

/-- The outermost frame of a history is the one it began with. -/
theorem frames_rooted (scoping : Scoping) (storage : Storage) (root : String) (us : List Use) :
    ∃ inner outermost, ((rooted scoping storage root).run us).env.frames = inner ++ [outermost] ∧
      outermost.name = root ∧ ∀ f ∈ inner, f.name ∈ us.flatMap Use.entered := by
  have hstart : (rooted scoping storage root).frameNames = [] ++ [root] := rfl
  obtain ⟨inner', hnames, hentered⟩ := frameNames_run us hstart
  obtain ⟨inner, last, hframes, rfl, hlast⟩ := List.map_eq_append_iff.mp hnames
  obtain ⟨outermost, rfl, hroot⟩ := List.map_eq_singleton_iff.mp hlast
  refine ⟨inner, outermost, hframes, hroot, fun f hf => ?_⟩
  have hname := hentered (List.mem_map_of_mem hf)
  rwa [List.append_nil] at hname

/-- **The outermost frame stays, a failing section leaves the frames that were there before it, and
a balanced one ends at the depth it began at.**  After any sequence of uses, whatever the scopes and
the way values are kept, the last frame is the one the history began with, and all the others were
entered since.  The outermost frame is not left, and a use that finds no binding changes nothing.  A
section that fails, whatever its body entered and left, leaves exactly as many of the outermost
frames as there were before it and still are, and changes none of them.  A section that ends well
after a body that ends in the section's own frame is back at the depth it began at; after a balanced
body the frames are again those that were there before. -/
theorem run_sections (scoping : Scoping) (storage : Storage) (root : String) (us : List Use)
    {h : History} (hrun : (rooted scoping storage root).run us = h) :
    (∃ inner outermost, h.env.frames = inner ++ [outermost] ∧ outermost.name = root ∧
      ∀ f ∈ inner, f.name ∈ us.flatMap Use.entered) ∧
    (h.env.depth = 1 → h.step .pop = (.outermost, h) ∧ (h.step .leave).2.env = h.env) ∧
    (∀ u n, (h.step u).1 = .unbound n → (h.step u).2 = h) ∧
    (∀ name body, Closed body →
      ((h.within name body).step .fail).1 = .failed ∧
      ((h.within name body).step .fail).2.sections = h.sections ∧
      ((h.within name body).step .fail).2.env.frames <:+ (h.within name body).env.frames ∧
      ((h.within name body).step .fail).2.env.depth =
        min h.env.depth (h.within name body).env.depth) ∧
    (∀ name body, Closed body → (h.within name body).env.depth = h.env.depth + 1 →
      ((h.within name body).step .leave).1 = .left ∧
      ((h.within name body).step .leave).2.sections = h.sections ∧
      ((h.within name body).step .leave).2.env.depth = h.env.depth) ∧
    (∀ name body, Rises body 0 →
      (h.within name body).env.depth = h.env.depth + 1 ∧
      ((h.within name body).step .leave).1 = .left ∧
      ((h.within name body).step .leave).2.frameNames = h.frameNames) := by
  refine ⟨?_, step_outermost, fun u n hu => step_unbound (Prod.ext hu rfl),
    fun name body hbody => ?_, fun name body hbody hdepth => ?_, fun name body hbody => ?_⟩
  · rw [← hrun]
    exact frames_rooted scoping storage root us
  · obtain ⟨hfailed, hframes⟩ := fail_within hbody h name
    refine ⟨hfailed, sections_ended hbody h name (.inr rfl), ?_, depth_fail_within hbody h name⟩
    rw [hframes]
    exact List.drop_suffix _ _
  · have hpos : 0 < h.env.depth := Nat.succ_pos _
    obtain ⟨hleft, hnames⟩ := leave_within hbody h name (by omega)
    refine ⟨hleft, sections_ended hbody h name (.inl rfl), ?_⟩
    rw [← length_frameNames, hnames, List.length_tail, length_frameNames, hdepth]
    rfl
  · have hpos : 0 < h.env.depth := Nat.succ_pos _
    have hnames := frameNames_within hbody h name
    have hdepth : (h.within name body).env.depth = h.env.depth + 1 := by
      rw [← length_frameNames, hnames, List.length_cons, length_frameNames]
    obtain ⟨hleft, hafter⟩ := leave_within hbody.closed h name (by omega)
    refine ⟨hdepth, hleft, ?_⟩
    rw [hafter, hnames]
    rfl

/-- A name is bound, and a frame is entered by hand. -/
def enteredSample : List Use := [.define "x" (.number 1), .push "hall"]

/-- A body that leaves its own frame and the one around it. -/
def leavingSample : List Use := [.define "y" (.text "1"), .pop, .pop]

/-- A balanced body.  The section in it enters a frame and fails. -/
def balancedSample : List Use :=
  [.push "attic", .enter "loft", .push "beam", .fail, .assign "x" (.number 2), .pop]

theorem run_sections_attemptSample :
    ((rooted .merge .tagged "house").run []).step .pop =
      (.outermost, (rooted .merge .tagged "house").run []) ∧
    (((rooted .lexical .tagged "house").run enteredSample).step (.assign "y" (.number 1))).2 =
      (rooted .lexical .tagged "house").run enteredSample ∧
    ((((rooted .merge .tagged "house").run enteredSample).within "try" leavingSample).step
      .fail).2.env.depth = 1 ∧
    ((((rooted .merge .tagged "house").run enteredSample).within "try" balancedSample).step
      .leave).2.frameNames = ["hall", "house"] := by
  have hleaving : Closed leavingSample := .plain (.plain (.plain .nil rfl) rfl) rfl
  have hbalanced : Rises balancedSample 0 :=
    .pop (.still (.fail "loft" (.push "attic" .nil) (.push "beam" .nil)) rfl)
  obtain ⟨-, hpop, -⟩ := run_sections .merge .tagged "house" [] rfl
  obtain ⟨-, -, hunbound, -⟩ := run_sections .lexical .tagged "house" enteredSample rfl
  obtain ⟨-, -, -, hfail, -, hleave⟩ := run_sections .merge .tagged "house" enteredSample rfl
  exact ⟨(hpop rfl).1, hunbound (.assign "y" (.number 1)) "y" (by decide),
    (hfail "try" leavingSample hleaving).2.2.2, (hleave "try" balancedSample hbalanced).2.2⟩

end History

end DialogueScript
