import DialogueScript.Syntax.Parse

/-!
# What the readers do

Each reader of `Syntax.Parse` taken apart once: which tokens it takes and which readers it calls
when it succeeds.  That what is read is derived, and the other way round, is proved from here.

* `sign_eq_ok`, `variableName_eq_ok`, `skipSemicolon_cases` — the readers of one token;
* `PrimaryStep`, `StatementStep` — one constructor for each way to succeed, with
  `primary_eq_ok`, `statement_eq_ok` and their converses `primary_of_step`, `statement_of_step`;
* `expression_eq_ok` — an expression is an assignment or a comparison;
* `chainRest_eq_ok`, `blockRest_eq_ok`, `statements_eq_ok` — one round of each repetition.
-/

namespace DialogueScript.Parse

theorem bind_eq_ok {ε α β : Type} {x : Except ε α} {f : α → Except ε β} {b : β} :
    (x >>= f) = .ok b ↔ ∃ a, x = .ok a ∧ f a = .ok b := by
  cases x with
  | error f => simp [bind, Except.bind]
  | ok a => simp [bind, Except.bind]

@[simp] theorem after_rest (t : Token) (rest : List Token) : (State.after t rest).rest = rest :=
  rfl

variable {ctx : Context} {st st' : State}

theorem sign_eq_ok {s : Sign} {what : String} (h : sign ctx s what st = .ok st') :
    ∃ t rest, st.rest = t :: rest ∧ t.kind = .sign s ∧ st' = .after t rest := by
  unfold sign at h
  split at h
  · rename_i t rest hst
    split at h
    · rename_i ht
      cases h
      exact ⟨t, rest, hst, ht, rfl⟩
    · cases h
  · cases h

theorem sign_of_kind {s : Sign} {what : String} {t : Token} {rest : List Token} {last : Location}
    (ht : t.kind = .sign s) : sign ctx s what ⟨t :: rest, last⟩ = .ok (.after t rest) := by
  simp [sign, ht]

theorem variableName_eq_ok {n : String} (h : variableName ctx st = .ok (n, st')) :
    ∃ t rest, st.rest = t :: rest ∧ t.kind = .name n ∧ st' = .after t rest := by
  unfold variableName at h
  split at h
  · rename_i t rest hst
    split at h
    · rename_i m ht
      cases h
      exact ⟨t, rest, hst, ht, rfl⟩
    · cases h
  · cases h

theorem variableName_of_kind {n : String} {t : Token} {rest : List Token} {last : Location}
    (ht : t.kind = .name n) :
    variableName ctx ⟨t :: rest, last⟩ = .ok (n, .after t rest) := by
  simp [variableName, ht]

theorem skipSemicolon_cases (st : State) :
    (skipSemicolon st = st ∧ ∀ t ∈ st.rest.head?, t.kind ≠ .sign .semicolon) ∨
      ∃ t rest, st.rest = t :: rest ∧ t.kind = .sign .semicolon ∧
        skipSemicolon st = .after t rest := by
  unfold skipSemicolon
  split
  · rename_i t rest hst
    split
    · rename_i ht
      exact .inr ⟨t, rest, hst, ht, rfl⟩
    · rename_i ht
      exact .inl ⟨rfl, by simp [hst, ht]⟩
  · rename_i hst
    exact .inl ⟨rfl, by simp [hst]⟩

/-! ## Expressions -/

/-- How a literal, a name or an expression in parentheses is read. -/
inductive PrimaryStep (ctx : Context) (inner : Reader Expr) (t : Token) (rest : List Token) :
    Expr → State → Prop
  | number {x : Float} (hk : t.kind = .number x) :
      PrimaryStep ctx inner t rest (.literal (.number x) (some t.span)) (.after t rest)
  | text {s : String} (hk : t.kind = .text s) :
      PrimaryStep ctx inner t rest (.literal (.text s) (some t.span)) (.after t rest)
  | name {n : String} (hk : t.kind = .name n) :
      PrimaryStep ctx inner t rest (.name n (some t.span)) (.after t rest)
  | parens {e : Expr} {st₁ st₂ : State} (hk : t.kind = .sign .openParen)
      (he : inner (.after t rest) = .ok (e, st₁))
      (hc : sign ctx .closeParen "')'" st₁ = .ok st₂) : PrimaryStep ctx inner t rest e st₂

theorem primary_eq_ok {inner : Reader Expr} {e : Expr} (h : primary ctx inner st = .ok (e, st')) :
    ∃ t rest, st.rest = t :: rest ∧ PrimaryStep ctx inner t rest e st' := by
  unfold primary at h
  split at h
  · rename_i t rest hst
    refine ⟨t, rest, hst, ?_⟩
    split at h
    · rename_i x hk
      cases h
      exact .number hk
    · rename_i s hk
      cases h
      exact .text hk
    · rename_i n hk
      cases h
      exact .name hk
    · rename_i hk
      obtain ⟨⟨e₁, st₁⟩, he, h⟩ := bind_eq_ok.mp h
      obtain ⟨st₂, hc, h⟩ := bind_eq_ok.mp h
      cases h
      exact .parens hk he hc
    · cases h
  · cases h

theorem primary_of_step {inner : Reader Expr} {e : Expr} {t : Token} {rest : List Token}
    (hst : st.rest = t :: rest) (h : PrimaryStep ctx inner t rest e st') :
    primary ctx inner st = .ok (e, st') := by
  unfold primary
  rw [hst]
  cases h with
  | number hk => simp only [hk]
  | text hk => simp only [hk]
  | name hk => simp only [hk]
  | parens hk he hc => simp only [hk, he, hc, bind, Except.bind]; rfl

/-- One round of a chain: it ends, or it reads an operator and an operand and goes on. -/
theorem chainRest_eq_ok {operand : Reader Expr} {operator : Kind → Option Operator} {first : Token}
    {bound : Nat} {left e : Expr}
    (h : chainRest operand operator first bound left st = .ok (e, st')) :
    (e = left ∧ st' = st) ∨ ∃ n t rest op right st₁, bound = n + 1 ∧ st.rest = t :: rest ∧
      operator t.kind = some op ∧ operand (.after t rest) = .ok (right, st₁) ∧
      chainRest operand operator first n (.binary left op right (st₁.spanFrom first)) st₁ =
        .ok (e, st') := by
  cases bound with
  | zero =>
    cases h
    exact .inl ⟨rfl, rfl⟩
  | succ n =>
    unfold chainRest at h
    split at h
    · cases h
      exact .inl ⟨rfl, rfl⟩
    · rename_i t rest hst
      split at h
      · cases h
        exact .inl ⟨rfl, rfl⟩
      · rename_i op hop
        split at h
        · cases h
        · rename_i right st₁ hright
          exact .inr ⟨n, t, rest, op, right, st₁, rfl, hst, hop, hright, h⟩

theorem chain_eq_ok {operand : Reader Expr} {operator : Kind → Option Operator} {e : Expr}
    (h : chain ctx operand operator st = .ok (e, st')) :
    ∃ left st₁, operand st = .ok (left, st₁) ∧
      chainRest operand operator (st.next ctx) ctx.bound left st₁ = .ok (e, st') := by
  unfold chain at h
  split at h
  · cases h
  · rename_i left st₁ hleft
    exact ⟨left, st₁, hleft, h⟩

/-- An expression is an assignment or a comparison. -/
theorem expression_eq_ok {levels : Nat} {e : Expr}
    (h : expression ctx (levels + 1) st = .ok (e, st')) :
    (∃ t a rest n v, st.rest = t :: a :: rest ∧ t.kind = .name n ∧ a.kind = .sign .assign ∧
      expression ctx levels (.after a rest) = .ok (v, st') ∧ e = .assign n v (st'.spanFrom t)) ∨
    comparison ctx (expression ctx levels) st = .ok (e, st') := by
  unfold expression at h
  split at h
  · rename_i t a rest hst
    split at h
    · rename_i n ht ha
      split at h
      · cases h
      · rename_i v st₁ hv
        cases h
        exact .inl ⟨t, a, rest, n, v, hst, ht, ha, hv, rfl⟩
    · exact .inr h
  · exact .inr h

/-! ## Statements -/

/-- How each form of statement is read, from its first token `t` on. -/
inductive StatementStep (ctx : Context) (levels : Nat) (st : State) (t : Token)
    (rest : List Token) : Stmt → State → Prop
  | declare {n : String} {e : Expr} {st₁ st₂ st₃ st₄ : State} (hk : t.kind = .keyword .declare)
      (hn : variableName ctx (.after t rest) = .ok (n, st₁))
      (ha : sign ctx .assign "'='" st₁ = .ok st₂) (he : expression ctx levels st₂ = .ok (e, st₃))
      (hs : semicolon ctx st₃ = .ok st₄) :
      StatementStep ctx levels st t rest (.declare n e (st₄.spanFrom t)) st₄
  | speak {e : Expr} {st₁ st₂ : State} (hk : t.kind = .keyword .speak)
      (he : expression ctx levels (.after t rest) = .ok (e, st₁))
      (hs : semicolon ctx st₁ = .ok st₂) :
      StatementStep ctx levels st t rest (.speak e (st₂.spanFrom t)) st₂
  | input {n : String} {st₁ st₂ : State} (hk : t.kind = .keyword .input)
      (hn : variableName ctx (.after t rest) = .ok (n, st₁)) (hs : semicolon ctx st₁ = .ok st₂) :
      StatementStep ctx levels st t rest (.input n (st₂.spanFrom t)) st₂
  | branch {c : Expr} {body : Stmt} {st₁ st₂ st₃ st₄ : State} (hk : t.kind = .keyword .branch)
      (ho : sign ctx .openParen "'('" (.after t rest) = .ok st₁)
      (he : expression ctx levels st₁ = .ok (c, st₂))
      (hc : sign ctx .closeParen "')'" st₂ = .ok st₃)
      (hb : statement ctx levels st₃ = .ok (body, st₄)) :
      StatementStep ctx levels st t rest (.branch c body ((skipSemicolon st₄).spanFrom t))
        (skipSemicolon st₄)
  | loop {body : Stmt} {st₁ : State} (hk : t.kind = .keyword .loop)
      (hb : statement ctx levels (.after t rest) = .ok (body, st₁)) :
      StatementStep ctx levels st t rest (.loop body ((skipSemicolon st₁).spanFrom t))
        (skipSemicolon st₁)
  | exit {st₁ : State} (hk : t.kind = .keyword .exit)
      (hs : semicolon ctx (.after t rest) = .ok st₁) :
      StatementStep ctx levels st t rest (.exit (st₁.spanFrom t)) st₁
  | block {body : List Stmt} {st₁ : State} (hk : t.kind = .sign .openBrace)
      (hb : blockRest ctx (statement ctx levels) ctx.bound (.after t rest) = .ok (body, st₁)) :
      StatementStep ctx levels st t rest (.block body (st₁.spanFrom t)) (skipSemicolon st₁)
  | express {e : Expr} {st₁ st₂ : State} (hk : ∀ k, t.kind ≠ .keyword k)
      (hb : t.kind ≠ .sign .openBrace) (he : expression ctx levels st = .ok (e, st₁))
      (hs : semicolon ctx st₁ = .ok st₂) :
      StatementStep ctx levels st t rest (.express e (st₂.spanFrom t)) st₂

theorem statement_eq_ok {levels : Nat} {s : Stmt}
    (h : statement ctx (levels + 1) st = .ok (s, st')) :
    ∃ t rest, st.rest = t :: rest ∧ StatementStep ctx levels st t rest s st' := by
  unfold statement at h
  split at h
  · cases h
  · rename_i t rest hst
    refine ⟨t, rest, hst, ?_⟩
    split at h
    · rename_i hk
      obtain ⟨⟨n, st₁⟩, hn, h⟩ := bind_eq_ok.mp h
      obtain ⟨st₂, ha, h⟩ := bind_eq_ok.mp h
      obtain ⟨⟨e, st₃⟩, he, h⟩ := bind_eq_ok.mp h
      obtain ⟨st₄, hs, h⟩ := bind_eq_ok.mp h
      cases h
      exact .declare hk hn ha he hs
    · rename_i hk
      obtain ⟨⟨e, st₁⟩, he, h⟩ := bind_eq_ok.mp h
      obtain ⟨st₂, hs, h⟩ := bind_eq_ok.mp h
      cases h
      exact .speak hk he hs
    · rename_i hk
      obtain ⟨⟨n, st₁⟩, hn, h⟩ := bind_eq_ok.mp h
      obtain ⟨st₂, hs, h⟩ := bind_eq_ok.mp h
      cases h
      exact .input hk hn hs
    · rename_i hk
      obtain ⟨st₁, ho, h⟩ := bind_eq_ok.mp h
      obtain ⟨⟨c, st₂⟩, he, h⟩ := bind_eq_ok.mp h
      obtain ⟨st₃, hc, h⟩ := bind_eq_ok.mp h
      obtain ⟨⟨body, st₄⟩, hb, h⟩ := bind_eq_ok.mp h
      cases h
      exact .branch hk ho he hc hb
    · rename_i hk
      obtain ⟨⟨body, st₁⟩, hb, h⟩ := bind_eq_ok.mp h
      cases h
      exact .loop hk hb
    · rename_i hk
      obtain ⟨st₁, hs, h⟩ := bind_eq_ok.mp h
      cases h
      exact .exit hk hs
    · rename_i hk
      obtain ⟨⟨body, st₁⟩, hb, h⟩ := bind_eq_ok.mp h
      cases h
      exact .block hk hb
    · cases h
    · rename_i hdeclare hspeak hinput hbranch hloop hexit hblock hfunction
      obtain ⟨⟨e, st₁⟩, he, h⟩ := bind_eq_ok.mp h
      obtain ⟨st₂, hs, h⟩ := bind_eq_ok.mp h
      cases h
      exact .express (fun k => by cases k <;> assumption) hblock he hs

/-- The other way round: what a form asks for is enough. -/
theorem statement_of_step {levels : Nat} {s : Stmt} {t : Token} {rest : List Token}
    (hst : st.rest = t :: rest) (h : StatementStep ctx levels st t rest s st') :
    statement ctx (levels + 1) st = .ok (s, st') := by
  unfold statement
  rw [hst]
  cases h with
  | declare hk hn ha he hs => simp only [hk, hn, ha, he, hs, bind, Except.bind]; rfl
  | speak hk he hs => simp only [hk, he, hs, bind, Except.bind]; rfl
  | input hk hn hs => simp only [hk, hn, hs, bind, Except.bind]; rfl
  | branch hk ho he hc hb => simp only [hk, ho, he, hc, hb, bind, Except.bind]; rfl
  | loop hk hb => simp only [hk, hb, bind, Except.bind]; rfl
  | exit hk hs => simp only [hk, hs, bind, Except.bind]; rfl
  | block hk hb => simp only [hk, hb, bind, Except.bind]; rfl
  | express hk hb he hs =>
    dsimp only
    split
    case h_9 => simp only [he, hs, bind, Except.bind]; rfl
    all_goals
      rename_i heq
      first
        | exact absurd heq (hk _)
        | exact absurd heq hb

/-- One round of a block: its end, or a statement and the rest of the block. -/
theorem blockRest_eq_ok {item : Reader Stmt} {n : Nat} {ss : List Stmt}
    (h : blockRest ctx item (n + 1) st = .ok (ss, st')) :
    (∃ t rest, st.rest = t :: rest ∧ t.kind = .sign .closeBrace ∧ ss = [] ∧ st' = .after t rest) ∨
      ∃ s st₁ ss', item st = .ok (s, st₁) ∧ blockRest ctx item n st₁ = .ok (ss', st') ∧
        ss = s :: ss' := by
  unfold blockRest at h
  split at h
  · cases h
  · rename_i t rest hst
    split at h
    · rename_i hk
      cases h
      exact .inl ⟨t, rest, hst, hk, rfl, rfl⟩
    · split at h
      · cases h
      · rename_i s st₁ hs
        split at h
        · cases h
        · rename_i ss' st₂ hss
          cases h
          exact .inr ⟨s, st₁, ss', hs, hss, rfl⟩

/-- One round of a program: its end, or a statement and the rest of the program. -/
theorem statements_eq_ok {item : Reader Stmt} {n : Nat} {ss : List Stmt}
    (h : statements item (n + 1) st = .ok ss) :
    (st.rest = [] ∧ ss = []) ∨
      ∃ s st₁ ss', item st = .ok (s, st₁) ∧ statements item n st₁ = .ok ss' ∧ ss = s :: ss' := by
  unfold statements at h
  split at h
  · rename_i hst
    cases h
    exact .inl ⟨hst, rfl⟩
  · split at h
    · cases h
    · rename_i s st₁ hs
      split at h
      · cases h
      · rename_i ss' hss
        cases h
        exact .inr ⟨s, st₁, ss', hs, hss, rfl⟩

end DialogueScript.Parse
