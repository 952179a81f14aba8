import DialogueScript.Proofs.ParseSound

/-!
# What is derived is read

A reader that stands before tokens whose kinds derive a tree reads exactly these tokens and returns
that tree, provided that what follows them cannot go on the phrase.

* `Complete` — this, for one reader of expressions, with the kinds that may follow;
* `primary_complete`, `chain_complete`, `expression_complete` — the levels of an expression;
* `ReadsAll` — the same for statements.  A row of semicolons behind a statement may lose some of its
  first ones, because a reader takes a semicolon wherever one may stand;
* `blockRest_complete`, `statement_complete`, `statements_complete` — statements and programs.
-/

namespace DialogueScript.Parse

open Grammar

/-- The first token of a row, if there is one, is of such a kind. -/
def Next (p : Kind → Prop) (rest : List Token) : Prop := ∀ t ∈ rest.head?, p t.kind

theorem next_cons {p : Kind → Prop} {t : Token} {rest : List Token} (h : p t.kind) :
    Next p (t :: rest) := by
  simpa [Next] using h

theorem kinds_eq_append {ts : List Token} {ks ls : List Kind} (h : kinds ts = ks ++ ls) :
    ∃ us vs, ts = us ++ vs ∧ kinds us = ks ∧ kinds vs = ls := by
  obtain ⟨us, vs, hts, hus, hvs⟩ := List.map_eq_append_iff.mp h
  exact ⟨us, vs, hts, hus, hvs⟩

theorem kinds_eq_cons {ts : List Token} {k : Kind} {ks : List Kind} (h : kinds ts = k :: ks) :
    ∃ t us, ts = t :: us ∧ t.kind = k ∧ kinds us = ks := by
  obtain ⟨t, us, hts, ht, hus⟩ := List.map_eq_cons_iff.mp h
  exact ⟨t, us, hts, ht, hus⟩

theorem kinds_eq_nil {ts : List Token} (h : kinds ts = []) : ts = [] := List.map_eq_nil_iff.mp h

theorem kinds_eq_singleton {ts : List Token} {k : Kind} (h : kinds ts = [k]) :
    ∃ t, ts = [t] ∧ t.kind = k := by
  obtain ⟨t, us, rfl, ht, hus⟩ := kinds_eq_cons h
  exact ⟨t, by rw [kinds_eq_nil hus], ht⟩

/-- A reader reads every row of tokens that derives a tree, if `stop` holds of what follows. -/
def Complete (ctx : Context) (r : Reader Expr) (g : Phrase Expr) (stop : Kind → Prop) : Prop :=
  ∀ used rest last e, g (kinds used) e → Next stop rest →
    (used ++ rest).length < ctx.bound →
    ∃ e' last', r ⟨used ++ rest, last⟩ = .ok (e', ⟨rest, last'⟩) ∧ e'.erase = e

theorem multiplication_of_isFactor {k : Kind} {op : Operator} (h : IsFactor k op) :
    multiplication k = some op := by
  cases h <;> rfl

theorem addition_of_isAddend {k : Kind} {op : Operator} (h : IsAddend k op) :
    addition k = some op := by
  cases h <;> rfl

theorem equality_of_isEquality {k : Kind} {op : Operator} (h : IsEquality k op) :
    equality k = some op := by
  cases h
  rfl

variable {ctx : Context}

/-! ## Expressions -/

theorem primary_complete {inner : Reader Expr} {g : Phrase Expr} {stop : Kind → Prop}
    (hinner : Complete ctx inner g stop) (hstop : stop (.sign .closeParen)) :
    Complete ctx (primary ctx inner) (Primary g) fun _ => True := by
  intro used rest last e hg _ hb
  generalize hks : kinds used = ks at hg
  cases hg with
  | number x =>
    obtain ⟨t, rfl, ht⟩ := kinds_eq_singleton hks
    exact ⟨_, _, primary_of_step rfl (.number ht), rfl⟩
  | text s =>
    obtain ⟨t, rfl, ht⟩ := kinds_eq_singleton hks
    exact ⟨_, _, primary_of_step rfl (.text ht), rfl⟩
  | name n =>
    obtain ⟨t, rfl, ht⟩ := kinds_eq_singleton hks
    exact ⟨_, _, primary_of_step rfl (.name ht), rfl⟩
  | parens h =>
    obtain ⟨t, us, rfl, ht, hus⟩ := kinds_eq_cons hks
    obtain ⟨body, close, rfl, rfl, hclose⟩ := kinds_eq_append hus
    obtain ⟨u, rfl, hu⟩ := kinds_eq_singleton hclose
    simp only [List.cons_append, List.append_assoc, List.nil_append, List.length_cons] at hb ⊢
    obtain ⟨e', last', he, herase⟩ := hinner body (u :: rest) t.span.stop e h
      (next_cons (hu ▸ hstop)) (by omega)
    exact ⟨e', u.span.stop, primary_of_step rfl (.parens ht he (sign_of_kind hu)), herase⟩

/-- A chain up to any point where its operands end: there the repetition takes over, with rounds
enough for what is left. -/
theorem chain_upTo {operand : Reader Expr} {operator : Kind → Option Operator} {g : Phrase Expr}
    {rel : Kind → Operator → Prop} {stop : Kind → Prop} (hoperand : Complete ctx operand g stop)
    (hop : ∀ k op, rel k op → operator k = some op) (hsep : ∀ k op, rel k op → stop k)
    {ks : List Kind} {e : Expr} (hg : Chain g rel ks e) :
    ∀ used rest last, kinds used = ks → Next stop rest → (used ++ rest).length < ctx.bound →
      ∃ first e' last' n, rest.length < n ∧ e'.erase = e ∧
        chain ctx operand operator ⟨used ++ rest, last⟩ =
          chainRest operand operator first n e' ⟨rest, last'⟩ := by
  induction hg with
  | first h =>
    intro used rest last hks hnext hb
    subst hks
    obtain ⟨e', last', he, herase⟩ := hoperand used rest last _ h hnext hb
    refine ⟨State.next ctx ⟨used ++ rest, last⟩, e', last', ctx.bound, ?_, herase, ?_⟩
    · simp only [List.length_append] at hb
      omega
    · simp only [chain, he]
  | next hl hk hr ih =>
    intro used rest last hks hnext hb
    obtain ⟨us, vs, rfl, hus, hvs⟩ := kinds_eq_append hks
    obtain ⟨t, ws, rfl, ht, hws⟩ := kinds_eq_cons hvs
    subst ht hws
    rw [List.append_assoc] at hb ⊢
    obtain ⟨first, l', last₁, n, hn, hl', hchain⟩ :=
      ih us (t :: ws ++ rest) last hus (next_cons (hsep _ _ hk)) hb
    obtain ⟨m, rfl⟩ : ∃ m, n = m + 1 := ⟨n - 1, by omega⟩
    simp only [List.length_append, List.length_cons] at hb hn
    obtain ⟨r', last₂, hr', hre⟩ := hoperand ws rest t.span.stop _ hr hnext
      (by simp only [List.length_append]; omega)
    refine ⟨first, .binary l' _ r' (State.spanFrom ⟨rest, last₂⟩ first), last₂, m, by omega,
      by rw [Expr.erase, hl', hre], ?_⟩
    rw [hchain, List.cons_append, chainRest]
    simp only [hop _ _ hk, State.after, hr']

theorem chain_complete {operand : Reader Expr} {operator : Kind → Option Operator}
    {g : Phrase Expr} {rel : Kind → Operator → Prop} {stop : Kind → Prop}
    (hoperand : Complete ctx operand g stop) (hop : ∀ k op, rel k op → operator k = some op)
    (hsep : ∀ k op, rel k op → stop k) :
    Complete ctx (chain ctx operand operator) (Chain g rel)
      fun k => stop k ∧ operator k = none := by
  intro used rest last e hg hnext hb
  obtain ⟨first, e', last', n, hn, herase, hchain⟩ :=
    chain_upTo hoperand hop hsep hg used rest last rfl (fun t ht => (hnext t ht).1) hb
  obtain ⟨m, rfl⟩ : ∃ m, n = m + 1 := ⟨n - 1, by omega⟩
  refine ⟨e', last', ?_, herase⟩
  rw [hchain, chainRest]
  cases rest with
  | nil => rfl
  | cons t rest => simp only [(hnext t (by simp)).2]

/-- What ends an expression: no operator and no assignment sign. -/
def EndsExpression (k : Kind) : Prop :=
  ((multiplication k = none ∧ addition k = none) ∧ equality k = none) ∧ k ≠ .sign .assign

theorem endsExpression_semicolon : EndsExpression (.sign .semicolon) :=
  ⟨⟨⟨rfl, rfl⟩, rfl⟩, by simp⟩

theorem endsExpression_closeParen : EndsExpression (.sign .closeParen) :=
  ⟨⟨⟨rfl, rfl⟩, rfl⟩, by simp⟩

theorem comparison_complete {inner : Reader Expr} {g : Phrase Expr}
    (hinner : Complete ctx inner g EndsExpression) :
    Complete ctx (comparison ctx inner) (Comparison g) EndsExpression := by
  have hterm : Complete ctx (chain ctx (primary ctx inner) multiplication) (Term g) fun k =>
      True ∧ multiplication k = none :=
    chain_complete (primary_complete hinner endsExpression_closeParen)
      (fun _ _ => multiplication_of_isFactor) fun _ _ _ => trivial
  have hsum : Complete ctx (chain ctx (chain ctx (primary ctx inner) multiplication) addition)
      (Sum g) fun k => (True ∧ multiplication k = none) ∧ addition k = none :=
    chain_complete hterm (fun _ _ => addition_of_isAddend)
      (by rintro k op ⟨⟩ <;> exact ⟨trivial, rfl⟩)
  have hcomparison : Complete ctx (comparison ctx inner) (Comparison g) fun k =>
      ((True ∧ multiplication k = none) ∧ addition k = none) ∧ equality k = none :=
    chain_complete hsum (fun _ _ => equality_of_isEquality)
      (by rintro k op ⟨⟩; exact ⟨⟨trivial, rfl⟩, rfl⟩)
  intro used rest last e hg hnext hb
  refine hcomparison used rest last e hg (fun t ht => ?_) hb
  obtain ⟨⟨⟨hm, ha⟩, he⟩, -⟩ := hnext t ht
  exact ⟨⟨⟨trivial, hm⟩, ha⟩, he⟩

/-- Tokens that do not begin like an assignment are read as a comparison. -/
theorem expression_of_plain {levels : Nat} {st : State}
    (h : startsAssignment (kinds st.rest) = false) :
    expression ctx (levels + 1) st = comparison ctx (expression ctx levels) st := by
  rw [expression]
  split
  · rename_i t a rest hst
    split
    · rename_i n ht ha
      simp [hst, ht, ha, startsAssignment] at h
    · rfl
  · rfl

theorem expression_complete (levels : Nat) :
    Complete ctx (expression ctx levels) (Expression levels) EndsExpression := by
  induction levels with
  | zero => intro used rest last e hg; exact hg.elim
  | succ levels ih =>
    intro used rest last e hg hnext hb
    generalize hks : kinds used = ks at hg
    cases hg with
    | assign n h =>
      obtain ⟨t, us, rfl, ht, hus⟩ := kinds_eq_cons hks
      obtain ⟨a, vs, rfl, ha, rfl⟩ := kinds_eq_cons hus
      simp only [List.cons_append, List.length_cons] at hb ⊢
      obtain ⟨v, last', hv, herase⟩ := ih vs rest a.span.stop _ h hnext (by omega)
      refine ⟨.assign n v (State.spanFrom ⟨rest, last'⟩ t), last', ?_, by rw [Expr.erase, herase]⟩
      rw [expression]
      simp only [ht, ha, State.after, hv]
    | comparison h =>
      have hplain : startsAssignment (kinds (used ++ rest)) = false := by
        rw [kinds_append, hks]
        refine h.opens.plain _ ?_
        cases rest with
        | nil => simp
        | cons t rest => simpa using (hnext t (by simp)).2
      subst hks
      rw [expression_of_plain hplain]
      exact comparison_complete ih used rest last e h hnext hb

/-! ## Statements -/

/-- A reader reads every row of tokens that derives a statement, and with it perhaps some of the
semicolons behind it. -/
def ReadsAll (ctx : Context) (r : Reader Stmt) (g : Phrase Stmt) : Prop :=
  ∀ used semi rest last s, g (kinds used) s → (∀ t ∈ semi, t.kind = .sign .semicolon) →
    Next (· ≠ .sign .semicolon) rest → (used ++ (semi ++ rest)).length < ctx.bound →
    ∃ s' semi' last', semi' <:+ semi ∧
      r ⟨used ++ (semi ++ rest), last⟩ = .ok (s', ⟨semi' ++ rest, last'⟩) ∧ s'.erase = s

/-- What every statement can begin with. -/
def Heads (g : Phrase Stmt) : Prop :=
  ∀ ks s, g ks s → ∃ k more, ks = k :: more ∧ k ≠ .sign .semicolon ∧ k ≠ .sign .closeBrace

theorem next_of_many {g : Phrase Stmt} (hg : Heads g) {us rest : List Token} {ss : List Stmt}
    (h : Many g (kinds us) ss) (hrest : Next (· ≠ .sign .semicolon) rest) :
    Next (· ≠ .sign .semicolon) (us ++ rest) := by
  generalize hks : kinds us = ks at h
  cases h with
  | nil =>
    cases kinds_eq_nil hks
    exact hrest
  | cons h hs =>
    obtain ⟨k, more, rfl, hk, -⟩ := hg _ _ h
    obtain ⟨t, vs, rfl, ht, -⟩ := kinds_eq_cons hks
    exact next_cons (by rwa [ht])

theorem skipSemicolon_row {semi rest : List Token} (last : Location)
    (hsemi : ∀ t ∈ semi, t.kind = .sign .semicolon) (hrest : Next (· ≠ .sign .semicolon) rest) :
    ∃ last', skipSemicolon ⟨semi ++ rest, last⟩ = ⟨semi.tail ++ rest, last'⟩ := by
  cases semi with
  | cons t semi => exact ⟨t.span.stop, by simp [skipSemicolon, hsemi t (by simp), State.after]⟩
  | nil =>
    refine ⟨last, ?_⟩
    cases rest with
    | nil => rfl
    | cons t rest => simp [skipSemicolon, hrest t (by simp)]

/-- An optional semicolon and the row behind it, less one, is no more than the row. -/
theorem tail_suffix {own semi left : List Token} (hown : MaybeSemicolon (kinds own))
    (h : left <:+ own ++ semi) : left.tail <:+ semi := by
  generalize hks : kinds own = ks at hown
  cases hown with
  | absent =>
    cases kinds_eq_nil hks
    exact (List.tail_suffix left).trans h
  | present =>
    obtain ⟨t, us, rfl, -, hus⟩ := kinds_eq_cons hks
    cases kinds_eq_nil hus
    rcases List.suffix_cons_iff.mp h with rfl | h
    · exact List.suffix_refl semi
    · exact (List.tail_suffix left).trans h

theorem semicolons_append {own semi : List Token} (hown : MaybeSemicolon (kinds own))
    (hsemi : ∀ t ∈ semi, t.kind = .sign .semicolon) :
    ∀ t ∈ own ++ semi, t.kind = .sign .semicolon := by
  generalize hks : kinds own = ks at hown
  cases hown with
  | absent =>
    cases kinds_eq_nil hks
    exact hsemi
  | present =>
    obtain ⟨u, us, rfl, hu, hus⟩ := kinds_eq_cons hks
    cases kinds_eq_nil hus
    rintro t (_ | ⟨_, ht⟩)
    · exact hu
    · exact hsemi t ht

theorem blockRest_complete {item : Reader Stmt} {g : Phrase Stmt} (hitem : ReadsAll ctx item g)
    (hg : Heads g) {ks : List Kind} {ss : List Stmt} (h : Many g ks ss) :
    ∀ used c rest last n, kinds used = ks → c.kind = .sign .closeBrace → used.length < n →
      (used ++ c :: rest).length < ctx.bound →
      ∃ ss' last', blockRest ctx item n ⟨used ++ c :: rest, last⟩ = .ok (ss', ⟨rest, last'⟩) ∧
        Stmt.eraseAll ss' = ss := by
  induction h with
  | nil =>
    intro used c rest last n hks hc hn _
    cases kinds_eq_nil hks
    obtain ⟨m, rfl⟩ : ∃ m, n = m + 1 := ⟨n - 1, by omega⟩
    exact ⟨[], c.span.stop, by simp [blockRest, hc, State.after], rfl⟩
  | cons h hs ih =>
    intro used c rest last n hks hc hn hb
    obtain ⟨us, vs, rfl, rfl, rfl⟩ := kinds_eq_append hks
    obtain ⟨k, more, hk, -, hbrace⟩ := hg _ _ h
    obtain ⟨t, us, rfl, ht, -⟩ := kinds_eq_cons hk
    obtain ⟨m, rfl⟩ : ∃ m, n = m + 1 := ⟨n - 1, by omega⟩
    simp only [List.append_assoc, List.length_append, List.length_cons] at hn hb ⊢
    obtain ⟨s', semi', last', hsuffix, hs', herase⟩ := hitem (t :: us) [] (vs ++ c :: rest) last _ h
      (by simp) (next_of_many hg hs (next_cons (by simp [hc]))) (by simp; omega)
    cases List.suffix_nil.mp hsuffix
    obtain ⟨ss', last'', hss', hall⟩ := ih vs c rest last' m rfl hc (by omega) (by simp; omega)
    refine ⟨s' :: ss', last'', ?_, by rw [Stmt.eraseAll, herase, hall]⟩
    rw [blockRest]
    simp only [List.nil_append, List.cons_append] at hs' ⊢
    simp only [ht ▸ hbrace, if_false, hs', hss']

theorem statement_complete (levels : Nat) :
    ReadsAll ctx (statement ctx levels) (Statement levels) := by
  induction levels with
  | zero => intro used semi rest last s hg; exact hg.elim
  | succ levels ih =>
    intro used semi rest last s hg hsemi hrest hb
    have hexpr := @expression_complete ctx levels
    -- an expression is always followed by a token that ends it
    have hends : ∀ {t : Token} {ts : List Token}, t.kind = .sign .semicolon →
        Next EndsExpression (t :: ts) := fun ht => next_cons (ht ▸ endsExpression_semicolon)
    generalize hks : kinds used = ks at hg
    cases hg with
    | declare n h =>
      obtain ⟨t, us, rfl, ht, hus⟩ := kinds_eq_cons hks
      obtain ⟨t₁, vs, rfl, ht₁, hvs⟩ := kinds_eq_cons hus
      obtain ⟨t₂, ws, rfl, ht₂, hws⟩ := kinds_eq_cons hvs
      obtain ⟨xs, ys, rfl, rfl, hys⟩ := kinds_eq_append hws
      obtain ⟨t₃, rfl, ht₃⟩ := kinds_eq_singleton hys
      simp only [List.cons_append, List.append_assoc, List.nil_append, List.length_cons] at hb ⊢
      obtain ⟨e', last', he, herase⟩ := hexpr xs (t₃ :: (semi ++ rest)) t₂.span.stop _ h
        (hends ht₃) (by omega)
      exact ⟨_, semi, _, List.suffix_refl _, statement_of_step rfl
        (.declare ht (variableName_of_kind ht₁) (sign_of_kind ht₂) he (sign_of_kind ht₃)),
        by rw [Stmt.erase, herase]⟩
    | speak h =>
      obtain ⟨t, us, rfl, ht, hus⟩ := kinds_eq_cons hks
      obtain ⟨xs, ys, rfl, rfl, hys⟩ := kinds_eq_append hus
      obtain ⟨t₁, rfl, ht₁⟩ := kinds_eq_singleton hys
      simp only [List.cons_append, List.append_assoc, List.nil_append, List.length_cons] at hb ⊢
      obtain ⟨e', last', he, herase⟩ := hexpr xs (t₁ :: (semi ++ rest)) t.span.stop _ h
        (hends ht₁) (by omega)
      exact ⟨_, semi, _, List.suffix_refl _,
        statement_of_step rfl (.speak ht he (sign_of_kind ht₁)), by rw [Stmt.erase, herase]⟩
    | input n =>
      obtain ⟨t, us, rfl, ht, hus⟩ := kinds_eq_cons hks
      obtain ⟨t₁, vs, rfl, ht₁, hvs⟩ := kinds_eq_cons hus
      obtain ⟨t₂, rfl, ht₂⟩ := kinds_eq_singleton hvs
      exact ⟨_, semi, _, List.suffix_refl _,
        statement_of_step rfl (.input ht (variableName_of_kind ht₁) (sign_of_kind ht₂)), rfl⟩
    | branch hc hs hown =>
      obtain ⟨us, own, rfl, hus, rfl⟩ := kinds_eq_append hks
      obtain ⟨vs, ws, rfl, hvs, hws⟩ := kinds_eq_append hus
      obtain ⟨t, vs, rfl, ht, hvs⟩ := kinds_eq_cons hvs
      obtain ⟨t₁, cs, rfl, ht₁, rfl⟩ := kinds_eq_cons hvs
      obtain ⟨t₂, bs, rfl, ht₂, rfl⟩ := kinds_eq_cons hws
      simp only [List.cons_append, List.append_assoc, List.length_cons] at hb ⊢
      obtain ⟨c', last₁, hc', hce⟩ := hexpr cs (t₂ :: (bs ++ (own ++ (semi ++ rest)))) t₁.span.stop
        _ hc (next_cons (ht₂ ▸ endsExpression_closeParen)) (by omega)
      obtain ⟨s', left, last₂, hleft, hs', hse⟩ := ih bs (own ++ semi) rest t₂.span.stop _ hs
        (semicolons_append hown hsemi) hrest (by simp at hb ⊢; omega)
      rw [List.append_assoc] at hs'
      obtain ⟨last₃, hskip⟩ := skipSemicolon_row last₂
        (fun u hu => semicolons_append hown hsemi u (hleft.subset hu)) hrest
      have hstep : statement ctx (levels + 1)
          ⟨t :: t₁ :: (cs ++ t₂ :: (bs ++ (own ++ (semi ++ rest)))), last⟩ = _ :=
        statement_of_step rfl (.branch ht (sign_of_kind ht₁) hc' (sign_of_kind ht₂) hs')
      rw [hskip] at hstep
      exact ⟨_, left.tail, last₃, tail_suffix hown hleft, hstep, by rw [Stmt.erase, hce, hse]⟩
    | loop hs hown =>
      obtain ⟨us, own, rfl, hus, rfl⟩ := kinds_eq_append hks
      obtain ⟨t, bs, rfl, ht, rfl⟩ := kinds_eq_cons hus
      simp only [List.cons_append, List.append_assoc, List.length_cons] at hb ⊢
      obtain ⟨s', left, last₁, hleft, hs', hse⟩ := ih bs (own ++ semi) rest t.span.stop _ hs
        (semicolons_append hown hsemi) hrest (by simp at hb ⊢; omega)
      rw [List.append_assoc] at hs'
      obtain ⟨last₂, hskip⟩ := skipSemicolon_row last₁
        (fun u hu => semicolons_append hown hsemi u (hleft.subset hu)) hrest
      have hstep : statement ctx (levels + 1) ⟨t :: (bs ++ (own ++ (semi ++ rest))), last⟩ = _ :=
        statement_of_step rfl (.loop ht hs')
      rw [hskip] at hstep
      exact ⟨_, left.tail, last₂, tail_suffix hown hleft, hstep, by rw [Stmt.erase, hse]⟩
    | exit =>
      obtain ⟨t, us, rfl, ht, hus⟩ := kinds_eq_cons hks
      obtain ⟨t₁, rfl, ht₁⟩ := kinds_eq_singleton hus
      exact ⟨_, semi, _, List.suffix_refl _, statement_of_step rfl (.exit ht (sign_of_kind ht₁)),
        rfl⟩
    | block hs hown =>
      obtain ⟨us, vs, rfl, hus, hvs⟩ := kinds_eq_append hks
      obtain ⟨t, bs, rfl, ht, rfl⟩ := kinds_eq_cons hus
      obtain ⟨c, own, rfl, hc, rfl⟩ := kinds_eq_cons hvs
      simp only [List.cons_append, List.append_assoc, List.length_cons] at hb ⊢
      obtain ⟨ss', last₁, hss', hse⟩ := blockRest_complete ih (fun _ _ => Statement.head) hs bs c
        (own ++ (semi ++ rest)) t.span.stop ctx.bound rfl hc (by simp at hb ⊢; omega)
        (by omega)
      obtain ⟨last₂, hskip⟩ := skipSemicolon_row last₁ (semicolons_append hown hsemi) hrest
      rw [List.append_assoc] at hskip
      have hstep : statement ctx (levels + 1)
          ⟨t :: (bs ++ c :: (own ++ (semi ++ rest))), last⟩ = _ :=
        statement_of_step rfl (.block ht hss')
      rw [hskip] at hstep
      exact ⟨_, (own ++ semi).tail, last₂, tail_suffix hown (List.suffix_refl _), hstep,
        by rw [Stmt.erase, hse]⟩
    | express h =>
      obtain ⟨xs, ys, rfl, rfl, hys⟩ := kinds_eq_append hks
      obtain ⟨t₁, rfl, ht₁⟩ := kinds_eq_singleton hys
      obtain ⟨k, more, hk, hstart⟩ := h.head
      obtain ⟨t, xs, rfl, ht, -⟩ := kinds_eq_cons hk
      simp only [List.cons_append, List.append_assoc, List.nil_append, List.length_cons] at hb ⊢
      obtain ⟨e', last', he, herase⟩ := hexpr (t :: xs) (t₁ :: (semi ++ rest)) last _ h
        (hends ht₁) (by simpa using hb)
      rw [← ht] at hstart
      exact ⟨_, semi, _, List.suffix_refl _, statement_of_step rfl
        (.express hstart.no_form.1 hstart.no_form.2 he (sign_of_kind ht₁)),
        by rw [Stmt.erase, herase]⟩

theorem statements_complete {item : Reader Stmt} {g : Phrase Stmt} (hitem : ReadsAll ctx item g)
    (hg : Heads g) {ks : List Kind} {ss : List Stmt} (h : Many g ks ss) :
    ∀ used last n, kinds used = ks → used.length < n → used.length < ctx.bound →
      ∃ ss', statements item n ⟨used, last⟩ = .ok ss' ∧ Stmt.eraseAll ss' = ss := by
  induction h with
  | nil =>
    intro used last n hks hn _
    cases kinds_eq_nil hks
    obtain ⟨m, rfl⟩ : ∃ m, n = m + 1 := ⟨n - 1, by omega⟩
    exact ⟨[], rfl, rfl⟩
  | cons h hs ih =>
    intro used last n hks hn hb
    obtain ⟨us, vs, rfl, rfl, rfl⟩ := kinds_eq_append hks
    obtain ⟨k, more, hk, -⟩ := hg _ _ h
    obtain ⟨t, us, rfl, -⟩ := kinds_eq_cons hk
    obtain ⟨m, rfl⟩ : ∃ m, n = m + 1 := ⟨n - 1, by omega⟩
    simp only [List.length_append, List.length_cons] at hn hb
    have hnext : Next (· ≠ .sign .semicolon) vs := by
      simpa using next_of_many hg hs (show Next (· ≠ .sign .semicolon) [] by simp [Next])
    obtain ⟨s', semi', last', hsuffix, hs', herase⟩ := hitem (t :: us) [] vs last _ h (by simp)
      hnext (by simp; omega)
    cases List.suffix_nil.mp hsuffix
    obtain ⟨ss', hss', hall⟩ := ih vs last' m rfl (by omega) (by omega)
    refine ⟨s' :: ss', ?_, by rw [Stmt.eraseAll, herase, hall]⟩
    rw [statements]
    simp only [List.nil_append, List.cons_append] at hs' ⊢
    simp only [hs', hss']

end DialogueScript.Parse
