import DialogueScript.Proofs.Slices

/-!
# Well-formed trees

Trees can be built by hand that no script has: with a node where it cannot stand, or with an
operator that has no sign.  The grammar makes none of them.

* `Expr.WellFormed`, `Stmt.WellFormed` — every node stands where it can stand, and every operator
  has a sign;
* `Grammar.Expression.wellFormed`, `Grammar.Statement.wellFormed` — the trees of the grammar are
  well-formed;
* `Script.wellFormed_of_parse` — **so is the tree of every script that is read**.
-/

namespace DialogueScript

/-- No node of the expression stands where it cannot stand, and its operators have signs. -/
def Expr.WellFormed : Expr → Prop
  | .assign _ v _ => v.WellFormed
  | .binary l op r _ => l.WellFormed ∧ op ∈ Operator.all ∧ r.WellFormed
  | .literal _ _ | .name _ _ => True
  | .stray _ _ => False

mutual

/-- The same holds of the nodes of the statement. -/
def Stmt.WellFormed : Stmt → Prop
  | .block body _ => Stmt.WellFormedAll body
  | .express e _ | .speak e _ | .declare _ e _ => e.WellFormed
  | .branch c body _ => c.WellFormed ∧ body.WellFormed
  | .loop body _ => body.WellFormed
  | .input _ _ | .exit _ => True
  | .stray _ _ => False

def Stmt.WellFormedAll : List Stmt → Prop
  | [] => True
  | s :: ss => s.WellFormed ∧ Stmt.WellFormedAll ss

end

namespace Grammar

theorem Chain.wellFormed {g : Phrase Expr} {operator : Kind → Operator → Prop}
    (hg : ∀ ks e, g ks e → e.WellFormed) (ho : ∀ k op, operator k op → op ∈ Operator.all)
    {ks : List Kind} {e : Expr} (h : Chain g operator ks e) : e.WellFormed := by
  induction h with
  | first h => exact hg _ _ h
  | next _ hk hr ih => exact ⟨ih, ho _ _ hk, hg _ _ hr⟩

theorem Primary.wellFormed {g : Phrase Expr} (hg : ∀ ks e, g ks e → e.WellFormed) {ks : List Kind}
    {e : Expr} (h : Primary g ks e) : e.WellFormed := by
  cases h with
  | parens h => exact hg _ _ h
  | _ => trivial

theorem Comparison.wellFormed {g : Phrase Expr} (hg : ∀ ks e, g ks e → e.WellFormed)
    {ks : List Kind} {e : Expr} (h : Comparison g ks e) : e.WellFormed :=
  Chain.wellFormed (fun _ _ => Chain.wellFormed (fun _ _ => Chain.wellFormed
    (fun _ _ => Primary.wellFormed hg) (by rintro k op ⟨⟩ <;> decide))
    (by rintro k op ⟨⟩ <;> decide)) (by rintro k op ⟨⟩; decide) h

theorem Expression.wellFormed {levels : Nat} :
    ∀ ks e, Expression levels ks e → e.WellFormed := by
  induction levels with
  | zero => exact fun ks e h => h.elim
  | succ levels ih =>
    intro ks e h
    cases h with
    | assign n h =>
      have hvalue := ih _ _ h
      exact hvalue
    | comparison h => exact h.wellFormed ih

theorem Many.wellFormed {g : Phrase Stmt} (hg : ∀ ks s, g ks s → s.WellFormed) {ks : List Kind}
    {ss : List Stmt} (h : Many g ks ss) : Stmt.WellFormedAll ss := by
  induction h with
  | nil => trivial
  | cons h _ ih => exact ⟨hg _ _ h, ih⟩

theorem Statement.wellFormed {levels : Nat} : ∀ ks s, Statement levels ks s → s.WellFormed := by
  induction levels with
  | zero => exact fun ks s h => h.elim
  | succ levels ih =>
    intro ks s h
    cases h with
    | declare n h | speak h | express h => exact Expression.wellFormed _ _ h
    | branch hc hs _ => exact ⟨Expression.wellFormed _ _ hc, ih _ _ hs⟩
    | loop hs _ =>
      have hbody := ih _ _ hs
      exact hbody
    | block hs _ => exact hs.wellFormed ih
    | input n | exit => trivial

end Grammar

theorem Expr.wellFormed_erase (e : Expr) : e.erase.WellFormed ↔ e.WellFormed := by
  induction e with
  | assign n v span ih => exact ih
  | binary l op r span ihl ihr => exact and_congr ihl (and_congr_right' ihr)
  | literal v span => rfl
  | name n span => rfl
  | stray label fields => rfl

mutual

theorem Stmt.wellFormed_erase : ∀ s : Stmt, s.erase.WellFormed ↔ s.WellFormed
  | .block body _ => Stmt.wellFormedAll_erase body
  | .express e _ | .speak e _ | .declare _ e _ => e.wellFormed_erase
  | .branch c body _ => and_congr c.wellFormed_erase (Stmt.wellFormed_erase body)
  | .loop body _ => Stmt.wellFormed_erase body
  | .input _ _ | .exit _ | .stray _ _ => Iff.rfl

theorem Stmt.wellFormedAll_erase : ∀ ss : List Stmt,
    Stmt.WellFormedAll (Stmt.eraseAll ss) ↔ Stmt.WellFormedAll ss
  | [] => Iff.rfl
  | s :: ss => and_congr (Stmt.wellFormed_erase s) (Stmt.wellFormedAll_erase ss)

end

/-- The tree of a script is well-formed, its spans left out. -/
theorem Script.wellFormed_of_parse {s : Script} {limits : Limits} {p : Program}
    (h : s.parse limits = .ok p) : Stmt.WellFormedAll p := by
  have hprogram := (good_of_parse h).2
  have hderives := (Parse.program_eq_ok_iff limits.nesting (some s.text) s.scan s.finish
    p.erase).mp ⟨p, hprogram, rfl⟩
  exact (Stmt.wellFormedAll_erase p).mp
    (Grammar.Many.wellFormed Grammar.Statement.wellFormed hderives)

end DialogueScript
