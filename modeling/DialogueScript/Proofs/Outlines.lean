import DialogueScript.Proofs.EscapedTexts
import DialogueScript.Proofs.MessageNumbers
import DialogueScript.Proofs.TallTrees
import DialogueScript.Proofs.WellFormed
import DialogueScript.Syntax.Outline

/-!
# What an outline tells

A tree can be told from its outline, whatever stands in its names and texts: an outline begins with
the name of its node, its fields are told by their number of lines and their indentation, and the
only row of nodes in it, that of a block, ends at a bracket.

* `Value.content_injective` — a literal is told from the line that shows it;
* `Expr.outline_cancel`, `Stmt.outline_cancel` — **what an outline begins with is its node**,
  whatever follows it;
* `Stmt.oneLine_outline` — no line of an outline is broken by a text in it;
* `Outline.intercalate_cancel` — so the lines are told from the text that they make;
* `Program.outline_eq_iff` — well-formed programs are told from their outlines;
* `Script.outline_determines` — **so are the programs of scripts**, and so they are from their
  drawings.
-/

namespace DialogueScript

open Outline

/-! ## Contents -/

theorem Value.newline_not_mem_content (v : Value) : '\n' ∉ v.content.toList := by
  cases v with
  | number x => exact (Number.dump_numberText x).not_mem (by decide) (by decide) (by decide)
  | text s => exact Text.newline_not_mem_quoted s

/-- A number has no quotes around it. -/
theorem Number.dump_ne_quoted (x : Float) (s : String) : dump x ≠ Text.quoted s := by
  intro h
  have hmark : Text.Quoted.mark s.toList ∈ (dump x).toList := by
    rw [h, Text.quoted, String.toList_ofList]
    exact List.mem_cons_self
  have hnumber := dump_numberText x
  rcases Text.Quoted.mark_cases s.toList with hq | hq <;> rw [hq] at hmark
  · exact hnumber.not_mem (by decide) (by decide) (by decide) hmark
  · exact hnumber.not_mem (by decide) (by decide) (by decide) hmark

theorem Value.content_injective : Function.Injective Value.content := by
  intro v w h
  cases v with
  | number x =>
    cases w with
    | number y => exact congrArg Value.number (Number.dump_injective h)
    | text t => exact absurd h (Number.dump_ne_quoted x t)
  | text s =>
    cases w with
    | number y => exact absurd h.symm (Number.dump_ne_quoted y s)
    | text t => exact congrArg Value.text (Text.quoted_injective h)

theorem Operator.eq_of_label {op op' : Operator} (hop : op ∈ all) (hop' : op' ∈ all)
    (h : op.label = op'.label) : op = op' := by
  have hall : ∀ a ∈ all, ∀ b ∈ all, a.label = b.label → a = b := by decide
  exact hall op hop op' hop' h

/-! ## Where the outline of a node ends -/

theorem Outline.field_inj {pad name a b : String} :
    field pad name a = field pad name b ↔ a = b := by
  unfold field
  exact String.append_right_inj _

/-- An outline begins with the name of its node. -/
theorem Expr.head?_outline (pad : String) (e : Expr) :
    (e.outline pad).head? = some (pad ++ e.label) := by
  cases e <;> rfl

theorem Stmt.head?_outline (pad : String) (s : Stmt) :
    (s.outline pad).head? = some (pad ++ s.label) := by
  cases s <;> rfl

/-- Lines that begin in two ways with a node say its name. -/
theorem Outline.label_eq {pad label label' : String} {lines lines' rest rest' : List String}
    (hhead : lines.head? = some (pad ++ label)) (hhead' : lines'.head? = some (pad ++ label'))
    (h : lines ++ rest = lines' ++ rest') : label = label' := by
  have hfirst := congrArg List.head? h
  rw [List.head?_append, List.head?_append, hhead, hhead'] at hfirst
  exact (String.append_right_inj pad).mp (Option.some.inj hfirst)

theorem Expr.label_eq_of_outline {e e' : Expr} {pad : String} {rest rest' : List String}
    (h : e.outline pad ++ rest = e'.outline pad ++ rest') : e.label = e'.label :=
  Outline.label_eq (e.head?_outline pad) (e'.head?_outline pad) h

theorem Stmt.label_eq_of_outline {s t : Stmt} {pad : String} {rest rest' : List String}
    (h : s.outline pad ++ rest = t.outline pad ++ rest') : s.label = t.label :=
  Outline.label_eq (s.head?_outline pad) (t.head?_outline pad) h

/-- **What an outline of an expression begins with is this expression**, whatever follows. -/
theorem Expr.outline_cancel {e e' : Expr} (he : e.WellFormed) (he' : e'.WellFormed)
    {pad : String} {rest rest' : List String}
    (h : e.outline pad ++ rest = e'.outline pad ++ rest') : e.erase = e'.erase ∧ rest = rest' := by
  induction e generalizing e' pad rest rest' with
  | assign n v span ih =>
    cases e' with
    | assign n' v' span' =>
      simp only [outline, List.cons_append, List.nil_append, List.cons.injEq, field_inj] at h
      obtain ⟨-, hname, -, hvalue⟩ := h
      have hv' : v'.WellFormed := he'
      obtain ⟨herase, hrest⟩ := ih he hv' hvalue
      exact ⟨by rw [erase, erase, Text.quoted_injective hname, herase], hrest⟩
    | stray => exact he'.elim
    | _ => exact absurd (label_eq_of_outline h) (by simp [label])
  | binary l op r span ihl ihr =>
    cases e' with
    | binary l' op' r' span' =>
      simp only [outline, List.cons_append, List.nil_append, List.append_assoc,
        List.cons.injEq] at h
      obtain ⟨-, -, hleft⟩ := h
      obtain ⟨hl, h⟩ := ihl he.1 he'.1 hleft
      simp only [List.cons.injEq, field_inj] at h
      obtain ⟨hop, -, hright⟩ := h
      obtain ⟨hr, hrest⟩ := ihr he.2.2 he'.2.2 hright
      exact ⟨by rw [erase, erase, hl, Operator.eq_of_label he.2.1 he'.2.1 hop, hr], hrest⟩
    | stray => exact he'.elim
    | _ => exact absurd (label_eq_of_outline h) (by simp [label])
  | literal v span =>
    cases e' with
    | literal v' span' =>
      simp only [outline, List.cons_append, List.nil_append, List.cons.injEq, field_inj] at h
      obtain ⟨-, hvalue, hrest⟩ := h
      exact ⟨by rw [erase, erase, Value.content_injective hvalue], hrest⟩
    | stray => exact he'.elim
    | _ => exact absurd (label_eq_of_outline h) (by simp [label])
  | name n span =>
    cases e' with
    | name n' span' =>
      simp only [outline, List.cons_append, List.nil_append, List.cons.injEq, field_inj] at h
      obtain ⟨-, hname, hrest⟩ := h
      exact ⟨by rw [erase, erase, Text.quoted_injective hname], hrest⟩
    | stray => exact he'.elim
    | _ => exact absurd (label_eq_of_outline h) (by simp [label])
  | stray => exact he.elim

/-- The lines do not go on below an indentation: the first of them is not indented so far. -/
def Outline.Ends (pad : String) (rest : List String) : Prop :=
  ∀ line ∈ rest.head?, ∀ text, line ≠ pad ++ text

/-- Statements in brackets end at the bracket. -/
theorem Outline.ends_bracket (pad : String) (rest : List String) :
    Ends (childPad pad) ((fieldPad pad ++ "]") :: rest) := by
  rintro line hline text rfl
  have hline := Option.some.inj hline
  rw [fieldPad, childPad, String.append_assoc, String.append_assoc, String.append_right_inj,
    ← String.toList_inj] at hline
  simp at hline

theorem Outline.Ends.not_outline {pad : String} {rest : List String} (h : Ends pad rest)
    {s : Stmt} {lines : List String} : rest ≠ s.outline pad ++ lines := by
  intro heq
  have hhead := congrArg List.head? heq
  rw [List.head?_append, s.head?_outline] at hhead
  exact h _ hhead s.label rfl

mutual

/-- **What an outline of a statement begins with is this statement**, whatever follows. -/
theorem Stmt.outline_cancel : ∀ {s t : Stmt}, s.WellFormed → t.WellFormed →
    ∀ {pad : String} {rest rest' : List String},
      s.outline pad ++ rest = t.outline pad ++ rest' → s.erase = t.erase ∧ rest = rest'
  | .block body _, t, hs, ht, pad, rest, rest', h => by
    cases t with
    | block body' span' =>
      simp only [outline, List.cons_append, List.nil_append, List.append_assoc,
        List.cons.injEq] at h
      obtain ⟨hbody, hrest⟩ := Stmt.outlineAll_cancel hs ht (ends_bracket pad _)
        (ends_bracket pad _) h.2.2
      exact ⟨by rw [erase, erase, hbody], (List.cons.inj hrest).2⟩
    | stray => exact ht.elim
    | _ => exact absurd (label_eq_of_outline h) (by simp [label])
  | .express e _, t, hs, ht, pad, rest, rest', h => by
    cases t with
    | express e' span' =>
      simp only [outline, List.cons_append, List.nil_append, List.cons.injEq] at h
      obtain ⟨he, hrest⟩ := Expr.outline_cancel hs ht h.2.2
      exact ⟨by rw [erase, erase, he], hrest⟩
    | stray => exact ht.elim
    | _ => exact absurd (label_eq_of_outline h) (by simp [label])
  | .branch c body _, t, hs, ht, pad, rest, rest', h => by
    cases t with
    | branch c' body' span' =>
      simp only [outline, List.cons_append, List.nil_append, List.append_assoc,
        List.cons.injEq] at h
      obtain ⟨hc, h⟩ := Expr.outline_cancel hs.1 ht.1 h.2.2
      obtain ⟨hbody, hrest⟩ := Stmt.outline_cancel hs.2 ht.2 (List.cons.inj h).2
      exact ⟨by rw [erase, erase, hc, hbody], hrest⟩
    | stray => exact ht.elim
    | _ => exact absurd (label_eq_of_outline h) (by simp [label])
  | .loop body _, t, hs, ht, pad, rest, rest', h => by
    cases t with
    | loop body' span' =>
      simp only [outline, List.cons_append, List.nil_append, List.cons.injEq] at h
      have hbody : body.WellFormed := hs
      have hbody' : body'.WellFormed := ht
      obtain ⟨herase, hrest⟩ := Stmt.outline_cancel hbody hbody' h.2.2
      exact ⟨by rw [erase, erase, herase], hrest⟩
    | stray => exact ht.elim
    | _ => exact absurd (label_eq_of_outline h) (by simp [label])
  | .speak e _, t, hs, ht, pad, rest, rest', h => by
    cases t with
    | speak e' span' =>
      simp only [outline, List.cons_append, List.nil_append, List.cons.injEq] at h
      obtain ⟨he, hrest⟩ := Expr.outline_cancel hs ht h.2.2
      exact ⟨by rw [erase, erase, he], hrest⟩
    | stray => exact ht.elim
    | _ => exact absurd (label_eq_of_outline h) (by simp [label])
  | .input n _, t, hs, ht, pad, rest, rest', h => by
    cases t with
    | input n' span' =>
      simp only [outline, List.cons_append, List.nil_append, List.cons.injEq, field_inj] at h
      obtain ⟨-, hname, hrest⟩ := h
      exact ⟨by rw [erase, erase, Text.quoted_injective hname], hrest⟩
    | stray => exact ht.elim
    | _ => exact absurd (label_eq_of_outline h) (by simp [label])
  | .declare n e _, t, hs, ht, pad, rest, rest', h => by
    cases t with
    | declare n' e' span' =>
      simp only [outline, List.cons_append, List.nil_append, List.cons.injEq, field_inj] at h
      obtain ⟨-, hname, -, hinit⟩ := h
      obtain ⟨he, hrest⟩ := Expr.outline_cancel hs ht hinit
      exact ⟨by rw [erase, erase, Text.quoted_injective hname, he], hrest⟩
    | stray => exact ht.elim
    | _ => exact absurd (label_eq_of_outline h) (by simp [label])
  | .exit _, t, hs, ht, pad, rest, rest', h => by
    cases t with
    | exit span' =>
      exact ⟨rfl, (List.cons.inj h).2⟩
    | stray => exact ht.elim
    | _ => exact absurd (label_eq_of_outline h) (by simp [label])
  | .stray _ _, _, hs, _, _, _, _, _ => hs.elim

-- a row of statements says nowhere how long it is: what follows must tell that it has ended
theorem Stmt.outlineAll_cancel : ∀ {ss ts : List Stmt}, WellFormedAll ss → WellFormedAll ts →
    ∀ {pad : String} {rest rest' : List String}, Outline.Ends pad rest → Outline.Ends pad rest' →
      outlineAll pad ss ++ rest = outlineAll pad ts ++ rest' →
      eraseAll ss = eraseAll ts ∧ rest = rest'
  | [], [], _, _, _, _, _, _, _, h => ⟨rfl, h⟩
  | [], t :: ts, _, _, _, _, _, hrest, _, h => by
    rw [outlineAll, outlineAll, List.nil_append, List.append_assoc] at h
    exact absurd h hrest.not_outline
  | s :: ss, [], _, _, _, _, _, _, hrest', h => by
    rw [outlineAll, outlineAll, List.nil_append, List.append_assoc] at h
    exact absurd h.symm hrest'.not_outline
  | s :: ss, t :: ts, hs, ht, _, _, _, hrest, hrest', h => by
    rw [outlineAll, outlineAll, List.append_assoc, List.append_assoc] at h
    obtain ⟨hfirst, h⟩ := Stmt.outline_cancel hs.1 ht.1 h
    obtain ⟨hall, hends⟩ := Stmt.outlineAll_cancel hs.2 ht.2 hrest hrest' h
    exact ⟨by rw [eraseAll, eraseAll, hfirst, hall], hends⟩

end

/-! ## Lines -/

/-- The text stands on one line. -/
def Outline.OneLine (s : String) : Prop := '\n' ∉ s.toList

instance (s : String) : Decidable (Outline.OneLine s) :=
  inferInstanceAs (Decidable (¬ '\n' ∈ s.toList))

theorem Outline.oneLine_append {s t : String} : OneLine (s ++ t) ↔ OneLine s ∧ OneLine t := by
  simp [OneLine, String.toList_append]

variable {pad : String}

theorem Outline.OneLine.fieldPad (h : OneLine pad) : OneLine (fieldPad pad) :=
  oneLine_append.mpr ⟨h, by decide⟩

theorem Outline.OneLine.childPad (h : OneLine pad) : OneLine (childPad pad) :=
  oneLine_append.mpr ⟨h, by decide⟩

theorem Outline.OneLine.field (h : OneLine pad) {name content : String} (hname : OneLine name)
    (hcontent : OneLine content) : OneLine (field pad name content) := by
  simp only [Outline.field, oneLine_append]
  exact ⟨⟨⟨h.fieldPad, hname⟩, by decide⟩, hcontent⟩

theorem Outline.OneLine.heading (h : OneLine pad) {name : String} (hname : OneLine name) :
    OneLine (heading pad name) := by
  simp only [Outline.heading, oneLine_append]
  exact ⟨⟨h.fieldPad, hname⟩, by decide⟩

theorem Operator.oneLine_label {op : Operator} (hop : op ∈ all) : Outline.OneLine op.label := by
  have hall : ∀ op ∈ all, '\n' ∉ op.label.toList := by decide
  exact hall op hop

/-- Each line of an outline is one line. -/
theorem Expr.oneLine_outline {e : Expr} (he : e.WellFormed) (hpad : OneLine pad) :
    ∀ line ∈ e.outline pad, OneLine line := by
  induction e generalizing pad with
  | assign n v span ih =>
    simp only [outline, List.forall_mem_append, List.forall_mem_cons, oneLine_append]
    exact ⟨⟨⟨hpad, by decide⟩, hpad.field (by decide) (Text.newline_not_mem_quoted n),
      hpad.heading (by decide), List.forall_mem_nil _⟩, ih he hpad.childPad⟩
  | binary l op r span ihl ihr =>
    simp only [outline, List.forall_mem_append, List.forall_mem_cons, oneLine_append]
    exact ⟨⟨⟨⟨⟨hpad, by decide⟩, hpad.heading (by decide), List.forall_mem_nil _⟩,
      ihl he.1 hpad.childPad⟩, hpad.field (by decide) (Operator.oneLine_label he.2.1),
      hpad.heading (by decide), List.forall_mem_nil _⟩, ihr he.2.2 hpad.childPad⟩
  | literal v span =>
    simp only [outline, List.forall_mem_cons, oneLine_append]
    exact ⟨⟨hpad, by decide⟩, hpad.field (by decide) v.newline_not_mem_content,
      List.forall_mem_nil _⟩
  | name n span =>
    simp only [outline, List.forall_mem_cons, oneLine_append]
    exact ⟨⟨hpad, by decide⟩, hpad.field (by decide) (Text.newline_not_mem_quoted n),
      List.forall_mem_nil _⟩
  | stray => exact he.elim

mutual

theorem Stmt.oneLine_outline : ∀ {s : Stmt}, s.WellFormed → ∀ {pad : String}, OneLine pad →
    ∀ line ∈ s.outline pad, OneLine line
  | .block body _, hs, pad, hpad => by
    simp only [outline, List.forall_mem_append, List.forall_mem_cons, oneLine_append]
    exact ⟨⟨⟨⟨hpad, by decide⟩, hpad.field (by decide) (by decide), List.forall_mem_nil _⟩,
      Stmt.oneLine_outlineAll hs hpad.childPad⟩, ⟨hpad.fieldPad, by decide⟩,
      List.forall_mem_nil _⟩
  | .express e _, hs, pad, hpad | .speak e _, hs, pad, hpad => by
    simp only [outline, List.forall_mem_append, List.forall_mem_cons, oneLine_append]
    exact ⟨⟨⟨hpad, by decide⟩, hpad.heading (by decide), List.forall_mem_nil _⟩,
      Expr.oneLine_outline hs hpad.childPad⟩
  | .branch c body _, hs, pad, hpad => by
    simp only [outline, List.forall_mem_append, List.forall_mem_cons, oneLine_append]
    exact ⟨⟨⟨⟨⟨hpad, by decide⟩, hpad.heading (by decide), List.forall_mem_nil _⟩,
      Expr.oneLine_outline hs.1 hpad.childPad⟩, hpad.heading (by decide), List.forall_mem_nil _⟩,
      Stmt.oneLine_outline hs.2 hpad.childPad⟩
  | .loop body _, hs, pad, hpad => by
    have hbody : body.WellFormed := hs
    simp only [outline, List.forall_mem_append, List.forall_mem_cons, oneLine_append]
    exact ⟨⟨⟨hpad, by decide⟩, hpad.heading (by decide), List.forall_mem_nil _⟩,
      Stmt.oneLine_outline hbody hpad.childPad⟩
  | .input n _, _, pad, hpad => by
    simp only [outline, List.forall_mem_cons, oneLine_append]
    exact ⟨⟨hpad, by decide⟩, hpad.field (by decide) (Text.newline_not_mem_quoted n),
      List.forall_mem_nil _⟩
  | .declare n e _, hs, pad, hpad => by
    simp only [outline, List.forall_mem_append, List.forall_mem_cons, oneLine_append]
    exact ⟨⟨⟨hpad, by decide⟩, hpad.field (by decide) (Text.newline_not_mem_quoted n),
      hpad.heading (by decide), List.forall_mem_nil _⟩, Expr.oneLine_outline hs hpad.childPad⟩
  | .exit _, _, pad, hpad => by
    simp only [outline, List.forall_mem_cons, oneLine_append]
    exact ⟨⟨hpad, by decide⟩, List.forall_mem_nil _⟩
  | .stray _ _, hs, _, _ => hs.elim

theorem Stmt.oneLine_outlineAll : ∀ {ss : List Stmt}, WellFormedAll ss →
    ∀ {pad : String}, OneLine pad → ∀ line ∈ outlineAll pad ss, OneLine line
  | [], _, _, _ => List.forall_mem_nil _
  | _ :: _, hs, _, hpad => List.forall_mem_append.mpr
    ⟨Stmt.oneLine_outline hs.1 hpad, Stmt.oneLine_outlineAll hs.2 hpad⟩

end

/-- A text is cut into its lines in one way. -/
theorem Outline.intercalate_cancel {ls ls' : List String} (hls : ∀ l ∈ ls, OneLine l)
    (hls' : ∀ l ∈ ls', OneLine l) (hne : ls ≠ [""]) (hne' : ls' ≠ [""])
    (h : "\n".intercalate ls = "\n".intercalate ls') : ls = ls' := by
  have hsplit {ls : List String} (hls : ∀ l ∈ ls, OneLine l) (hnil : ls ≠ []) :
      ("\n".intercalate ls).toList.splitOn '\n' = ls.map String.toList := by
    rw [String.toList_intercalate]
    exact List.splitOn_intercalate '\n' (List.forall_mem_map.mpr hls) (by simpa using hnil)
  have hmap_injective : Function.Injective (List.map String.toList) :=
    List.map_injective_iff.mpr fun _ _ h => String.toList_injective h
  have hempty {ls : List String} (hls : ∀ l ∈ ls, OneLine l) (hne : ls ≠ [""])
      (h : "\n".intercalate ls = "") : ls = [] := by
    by_contra hnil
    have hmap := hsplit hls hnil
    rw [h] at hmap
    exact hne (hmap_injective hmap.symm)
  rcases eq_or_ne ls [] with rfl | hnil
  · exact (hempty hls' hne' h.symm).symm
  rcases eq_or_ne ls' [] with rfl | hnil'
  · exact hempty hls hne h
  have hmap := hsplit hls hnil
  rw [h, hsplit hls' hnil'] at hmap
  exact hmap_injective hmap.symm

/-! ## Spans -/

theorem Expr.outline_erase (pad : String) (e : Expr) : e.erase.outline pad = e.outline pad := by
  induction e generalizing pad with
  | assign n v span ih => rw [erase, outline, outline, ih]
  | binary l op r span ihl ihr => rw [erase, outline, outline, ihl, ihr]
  | literal v span => rfl
  | name n span => rfl
  | stray label fields => rfl

mutual

theorem Stmt.outline_erase : ∀ (pad : String) (s : Stmt), s.erase.outline pad = s.outline pad
  | pad, .block body _ => by rw [erase, outline, outline, Stmt.outlineAll_erase _ body]
  | pad, .express e _ => by rw [erase, outline, outline, e.outline_erase]
  | pad, .branch c body _ => by
    rw [erase, outline, outline, c.outline_erase, Stmt.outline_erase _ body]
  | pad, .loop body _ => by rw [erase, outline, outline, Stmt.outline_erase _ body]
  | pad, .speak e _ => by rw [erase, outline, outline, e.outline_erase]
  | pad, .declare n e _ => by rw [erase, outline, outline, e.outline_erase]
  | _, .input _ _ | _, .exit _ | _, .stray _ _ => rfl

theorem Stmt.outlineAll_erase : ∀ (pad : String) (ss : List Stmt),
    outlineAll pad (eraseAll ss) = outlineAll pad ss
  | _, [] => rfl
  | pad, s :: ss => by
    rw [eraseAll, outlineAll, outlineAll, Stmt.outline_erase pad s, Stmt.outlineAll_erase pad ss]

end

namespace Program

/-- The outline of a program, which may be empty, is never a single empty line. -/
theorem outlineAll_ne_empty {p : Program} (hp : Stmt.WellFormedAll p) :
    Stmt.outlineAll "" p ≠ [""] := by
  intro h
  cases p with
  | nil => cases h
  | cons s ss =>
    have hhead := congrArg List.head? h
    rw [Stmt.outlineAll, List.head?_append, s.head?_outline] at hhead
    have hlabel : "" ++ s.label = "" := Option.some.inj hhead
    cases s with
    | stray => exact hp.1.elim
    | _ => simp [Stmt.label] at hlabel

theorem outline_eq_iff {p q : Program} (hp : Stmt.WellFormedAll p) (hq : Stmt.WellFormedAll q) :
    p.outline = q.outline ↔ p.same q = true := by
  rw [same_iff]
  constructor
  · intro h
    have hlines := Outline.intercalate_cancel (Stmt.oneLine_outlineAll hp (by decide))
      (Stmt.oneLine_outlineAll hq (by decide)) (outlineAll_ne_empty hp) (outlineAll_ne_empty hq) h
    have hends : Outline.Ends "" [] := fun _ hline => nomatch hline
    have hrows : Stmt.outlineAll "" p ++ [] = Stmt.outlineAll "" q ++ [] := by rw [hlines]
    exact (Stmt.outlineAll_cancel hp hq hends hends hrows).1
  · intro h
    rw [outline, outline, ← Stmt.outlineAll_erase, ← Stmt.outlineAll_erase "" q]
    exact congrArg _ (congrArg _ h)

theorem same_height {p q : Program} (h : p.same q = true) : p.height = q.height := by
  rw [same_iff] at h
  calc
    p.height = p.erase.height := (Stmt.heightAll_erase p).symm
    _ = q.erase.height := by rw [h]
    _ = q.height := Stmt.heightAll_erase q

theorem drawing_eq_some_iff {p : Program} {limits : Limits} {drawing : String} :
    p.drawing? limits = some drawing ↔ p.height ≤ limits.height ∧ p.outline = drawing := by
  unfold drawing?
  split <;> simp_all

end Program

namespace Script

/-- **The outline of a script tells its program.**  The programs of two scripts have the same
outline exactly if they are the same but for their spans; so if one of them can be drawn, the other
has its drawing exactly if it is the same. -/
theorem outline_determines {s t : Script} {limits limits' : Limits} {p q : Program}
    (hp : s.parse limits = .ok p) (hq : t.parse limits' = .ok q) :
    (p.outline = q.outline ↔ p.same q = true) ∧
      ∀ (room : Limits) drawing, p.drawing? room = some drawing →
        (q.drawing? room = some drawing ↔ p.same q = true) := by
  have hsame := Program.outline_eq_iff (wellFormed_of_parse hp) (wellFormed_of_parse hq)
  refine ⟨hsame, fun room drawing hdrawing => ?_⟩
  obtain ⟨hheight, rfl⟩ := Program.drawing_eq_some_iff.mp hdrawing
  rw [Program.drawing_eq_some_iff]
  constructor
  · rintro ⟨-, houtline⟩
    exact hsame.mp houtline.symm
  · intro h
    exact ⟨Program.same_height h ▸ hheight, (hsame.mpr h).symm⟩

/-- A text that looks like a line of an outline, and a statement behind a block. -/
def bracketSample : Script := { text := "\x7b speak \"]\"; exit; \x7d exit;" }

/-- The same program, written otherwise. -/
def bracketSampleRespaced : Script :=
  { text := "\x7bspeak(\"]\");exit;\x7d;# as before\nexit ;", integers := false }

/-- The block ends one statement earlier. -/
def bracketSampleMoved : Script := { text := "\x7b speak \"]\"; \x7d exit; exit;" }

def bracketSampleDrawing : String :=
  "Block\n  statements: [\n    Speak\n      expression:\n        Literal\n          value: ']'\n" ++
    "    Exit\n  ]\nExit"

theorem outline_determines_bracketSample : ∃ p q r, bracketSample.parse .small = .ok p ∧
    bracketSampleRespaced.parse .small = .ok q ∧ bracketSampleMoved.parse .small = .ok r ∧
    p.drawing? .small = some bracketSampleDrawing ∧
    q.drawing? .small = some bracketSampleDrawing ∧
    r.drawing? .small ≠ some bracketSampleDrawing := by
  have hsame : (do
      let p ← bracketSample.parse .small
      let q ← bracketSampleRespaced.parse .small
      let r ← bracketSampleMoved.parse .small
      return (p.same q, p.same r, p.drawing? .small)) =
        Except.ok (true, false, some bracketSampleDrawing) := by
    decide +kernel
  cases hp : bracketSample.parse .small with
  | error => simp [hp, bind, Except.bind] at hsame
  | ok p =>
  cases hq : bracketSampleRespaced.parse .small with
  | error => simp [hp, hq, bind, Except.bind] at hsame
  | ok q =>
  cases hr : bracketSampleMoved.parse .small with
  | error => simp [hp, hq, hr, bind, Except.bind] at hsame
  | ok r =>
    rw [hp, hq, hr] at hsame
    obtain ⟨hpq, hpr, hdrawing⟩ : p.same q = true ∧ p.same r = false ∧
        p.drawing? .small = some bracketSampleDrawing := by
      simpa using Except.ok.inj hsame
    refine ⟨p, q, r, rfl, rfl, rfl, hdrawing, ?_, fun h => ?_⟩
    · exact ((outline_determines hp hq).2 _ _ hdrawing).mpr hpq
    · rw [((outline_determines hp hr).2 _ _ hdrawing).mp h] at hpr
      cases hpr

end Script

end DialogueScript
