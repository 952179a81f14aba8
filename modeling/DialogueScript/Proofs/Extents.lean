import DialogueScript.Proofs.ParseSound

/-!
# The tokens of a node

Every node of a program is read from a stretch of the program's tokens.  Its span goes from the
first of them to the last, they derive the node again, and its children have stretches of their own
in them, one after the other.  Parentheses around an expression and a semicolon behind a block are
read, but belong to no stretch of what they close.

* `Node`, `Node.children`, `Node.Of` — expressions and statements alike, and those of a program;
* `Parse.Row` — things that stand in stretches of a list of tokens, from left to right;
* `Parse.Covers` — the tokens are those of the node, all the way down the tree;
* `Parse.Lays` — what this asks of a reader, with `expression_lays` and `statement_lays`;
* `Parse.statements_row`, `Parse.exists_covers` — **every node of a program has its tokens**;
* `Parse.Ordered`, `Covers.inside`, `Row.pairwise_before` — where tokens lie in order, a child lies
  inside its parent and what stands in a row lies in order.
-/

namespace DialogueScript

open Grammar

/-! ## Nodes -/

/-- A node of a syntax tree. -/
inductive Node where
  | expr (e : Expr)
  | stmt (s : Stmt)

namespace Node

def span : Node → Option Span
  | expr e => e.span
  | stmt s => s.span

/-- The nodes directly below, as they are written from left to right. -/
def children : Node → List Node
  | expr (.assign _ v _) => [expr v]
  | expr (.binary l _ r _) => [expr l, expr r]
  | expr (.literal _ _) | expr (.name _ _) | expr (.stray _ _) => []
  | stmt (.block body _) => body.map stmt
  | stmt (.express e _) | stmt (.speak e _) | stmt (.declare _ e _) => [expr e]
  | stmt (.branch c body _) => [expr c, stmt body]
  | stmt (.loop body _) => [stmt body]
  | stmt (.input _ _) | stmt (.exit _) | stmt (.stray _ _) => []

/-- The nodes of a program. -/
inductive Of (p : List Stmt) : Node → Prop
  | top {s : Stmt} (hs : s ∈ p) : Of p (stmt s)
  | child {m n : Node} (hm : Of p m) (hn : n ∈ m.children) : Of p n

/-- The kinds derive the node: an expression inside a number of levels, a statement one level
further out. -/
def Derived (levels : Nat) (ks : List Kind) : Node → Prop
  | expr e => Expression levels ks e.erase
  | stmt s => Statement (levels + 1) ks s.erase

end Node

/-- One span lies inside another. -/
structure Span.Inside (inner outer : Span) : Prop where
  start : outer.start.offset ≤ inner.start.offset
  stop : inner.stop.offset ≤ outer.stop.offset

/-- One span ends before another one starts. -/
def Span.Before (a b : Span) : Prop := a.stop.offset ≤ b.start.offset

namespace Parse

/-! ## Stretches of tokens -/

/-- The span goes from the first of the tokens to the last. -/
def Spans (us : List Token) (span : Span) : Prop :=
  ∃ t ∈ us.head?, ∃ u ∈ us.getLast?, span = ⟨t.span.file, t.span.start, u.span.stop⟩

/-- The state is right behind the tokens. -/
def State.Behind (st : State) (us : List Token) : Prop := ∃ u ∈ us.getLast?, st.last = u.span.stop

/-- Things that stand in stretches of a list of tokens, one after the other. -/
inductive Row {α : Type} (covers : List Token → α → Prop) : List Token → List α → Prop
  | nil (gap : List Token) : Row covers gap []
  | cons (gap : List Token) {us rest : List Token} {x : α} {xs : List α} (hx : covers us x)
      (hxs : Row covers rest xs) : Row covers (gap ++ (us ++ rest)) (x :: xs)

/-- The tokens are those of a node. -/
inductive Covers (levels : Nat) : List Token → Node → Prop
  | node {us : List Token} {n : Node} {span : Span} (hspan : n.span = some span)
      (hus : Spans us span) (hderived : n.Derived levels (kinds us))
      (hrow : Row (Covers levels) us n.children) : Covers levels us n

namespace Row

variable {α : Type} {covers : List Token → α → Prop} {us vs : List Token} {x : α} {xs ys : List α}

theorem single (hx : covers us x) : Row covers us [x] := by
  have hrow := Row.cons [] hx (.nil [])
  rwa [List.nil_append, List.append_nil] at hrow

theorem behind_gap (gap : List Token) (h : Row covers us xs) : Row covers (gap ++ us) xs := by
  cases h with
  | nil gap' => exact .nil _
  | cons gap' hx hxs =>
    rw [← List.append_assoc]
    exact .cons (gap ++ gap') hx hxs

theorem append (h : Row covers us xs) (h' : Row covers vs ys) :
    Row covers (us ++ vs) (xs ++ ys) := by
  induction h with
  | nil gap => exact h'.behind_gap gap
  | cons gap hx _ ih =>
    rw [List.append_assoc, List.append_assoc]
    exact .cons gap hx ih

theorem before_gap (gap : List Token) (h : Row covers us xs) : Row covers (us ++ gap) xs := by
  have hrow := h.append (.nil gap)
  rwa [List.append_nil] at hrow

/-- What stands in a row has its stretch of the tokens. -/
theorem exists_stretch (h : Row covers us xs) (hx : x ∈ xs) :
    ∃ pre vs post, us = pre ++ (vs ++ post) ∧ covers vs x := by
  induction h with
  | nil gap => cases hx
  | @cons gap vs rest y ys hy _ ih =>
    rcases List.mem_cons.mp hx with rfl | hx
    · exact ⟨gap, vs, rest, rfl, hy⟩
    · obtain ⟨pre, vs', post, rfl, hcovers⟩ := ih hx
      exact ⟨gap ++ (vs ++ pre), vs', post, by simp only [List.append_assoc], hcovers⟩

end Row

/-! ## Readers lay out their nodes -/

/-- What a reader lays out: it has stopped right behind the tokens it took, and the nodes stand in a
row in them. -/
structure Laid (levels : Nat) (us : List Token) (ns : List Node) (st : State) : Prop where
  behind : st.Behind us
  row : Row (Covers levels) us ns

/-- A successful reader lays out the nodes of what it returns. -/
def Lays {α : Type} (bound levels : Nat) (nodes : α → List Node) (r : Reader α) : Prop :=
  ∀ st x st', st.rest.length < bound → r st = .ok (x, st') →
    ∃ used, st.rest = used ++ st'.rest ∧ Laid levels used (nodes x) st'

variable {ctx : Context} {bound levels : Nat} {st st' : State} {t : Token} {us : List Token}

theorem behind_after (us : List Token) (t : Token) (rest : List Token) :
    (State.after t rest).Behind (us ++ [t]) := ⟨t, List.getLast?_concat, rfl⟩

theorem State.Behind.append (h : st.Behind us) (pre : List Token) : st.Behind (pre ++ us) := by
  obtain ⟨u, hu, hlast⟩ := h
  refine ⟨u, ?_, hlast⟩
  rw [List.getLast?_append, Option.mem_def.mp hu]
  rfl

theorem State.Behind.length_pos (h : st.Behind us) : 0 < us.length := by
  obtain ⟨u, hu, -⟩ := h
  exact List.length_pos_of_mem (List.mem_of_getLast? hu)

/-- A span from the first of some tokens, made right behind them, is the span of these tokens. -/
theorem State.Behind.spans (h : st.Behind us) (ht : t ∈ us.head?) :
    ∃ span, st.spanFrom t = some span ∧ Spans us span := by
  obtain ⟨u, hu, hlast⟩ := h
  exact ⟨_, rfl, t, ht, u, hu, by rw [hlast]⟩

theorem covers_of_behind {n : Node} (hspan : n.span = st.spanFrom t) (ht : t ∈ us.head?)
    (hbehind : st.Behind us) (hderived : n.Derived levels (kinds us))
    (hrow : Row (Covers levels) us n.children) : Covers levels us n := by
  obtain ⟨span, heq, hus⟩ := hbehind.spans ht
  exact .node (hspan.trans heq) hus hderived hrow

theorem laid_of_behind {n : Node} (hspan : n.span = st.spanFrom t) (ht : t ∈ us.head?)
    (hbehind : st.Behind us) (hderived : n.Derived levels (kinds us))
    (hrow : Row (Covers levels) us n.children) : Laid levels us [n] st :=
  ⟨hbehind, .single (covers_of_behind hspan ht hbehind hderived hrow)⟩

/-- A sound reader's tokens, whichever way they are found, derive what it returns. -/
theorem Sound.derives {α : Type} {erase : α → α} {r : Reader α} {g : Phrase α} {x : α}
    (hr : Sound bound erase r g) (hb : st.rest.length < bound) (h : r st = .ok (x, st'))
    (hus : st.rest = us ++ st'.rest) : g (kinds us) (erase x) := by
  obtain ⟨used, hused, hg⟩ := hr _ _ _ hb h
  obtain rfl : us = used := List.append_cancel_right (hus.symm.trans hused)
  exact hg

/-! ### Expressions -/

/-- A token that is an expression by itself. -/
theorem laid_token {e : Expr} {rest : List Token} (hspan : e.span = some t.span)
    (hderived : Expression levels [t.kind] e.erase) (hchildren : (Node.expr e).children = []) :
    Laid levels [t] [.expr e] (.after t rest) := by
  refine ⟨behind_after [] t rest, .single (.node hspan ⟨t, rfl, t, rfl, rfl⟩ hderived ?_)⟩
  rw [hchildren]
  exact .nil _

theorem primary_lays {inner : Reader Expr} {g : Phrase Expr}
    (hinner : Lays bound levels (fun e => [.expr e]) inner)
    (hlift : ∀ ks e, Primary g ks e → Expression levels ks e) :
    Lays bound levels (fun e => [.expr e]) (primary ctx inner) := by
  intro st e st' hb h
  obtain ⟨t, rest, hst, hstep⟩ := primary_eq_ok h
  have hrest : rest.length < bound := by
    simp only [hst, List.length_cons] at hb
    omega
  cases hstep with
  | number hk => exact ⟨[t], hst, laid_token rfl (hlift _ _ (hk ▸ .number _)) rfl⟩
  | text hk => exact ⟨[t], hst, laid_token rfl (hlift _ _ (hk ▸ .text _)) rfl⟩
  | name hk => exact ⟨[t], hst, laid_token rfl (hlift _ _ (hk ▸ .name _)) rfl⟩
  | parens hk he hc =>
    obtain ⟨used, hused, hlaid⟩ := hinner _ _ _ hrest he
    obtain ⟨u, rest', hst₁, hu, rfl⟩ := sign_eq_ok hc
    rw [after_rest] at hused
    -- the parentheses stand around the tokens of the expression
    refine ⟨[t] ++ used ++ [u], by simp [hst, hused, hst₁], behind_after _ _ _, ?_⟩
    exact (hlaid.row.behind_gap [t]).before_gap [u]

/-- Every round of a chain makes all tokens so far those of one more operation. -/
theorem chainRest_lays {operand : Reader Expr} {operator : Kind → Option Operator}
    {g : Phrase Expr} {rel : Kind → Operator → Prop} (hsound : Sound bound Expr.erase operand g)
    (hoperand : Lays bound levels (fun e => [.expr e]) operand)
    (hop : ∀ k op, operator k = some op → rel k op)
    (hlift : ∀ ks e, Chain g rel ks e → Expression levels ks e) (first : Token) :
    ∀ n left st e st', st.rest.length < bound →
      chainRest operand operator first n left st = .ok (e, st') →
      ∀ us, first ∈ us.head? → Chain g rel (kinds us) left.erase →
        Laid levels us [.expr left] st →
        ∃ used, st.rest = used ++ st'.rest ∧ Laid levels (us ++ used) [.expr e] st' := by
  intro n
  induction n with
  | zero =>
    intro left st e st' _ h us _ _ hlaid
    cases h
    exact ⟨[], rfl, by rwa [List.append_nil]⟩
  | succ n ih =>
    intro left st e st' hb h us hfirst hchain hlaid
    rcases chainRest_eq_ok h with ⟨rfl, rfl⟩ | ⟨m, t, rest, op, right, st₁, hm, hst, hk, hr, h⟩
    · exact ⟨[], rfl, by rwa [List.append_nil]⟩
    · cases hm
      have hrest : rest.length < bound := by
        simp only [hst, List.length_cons] at hb
        omega
      obtain ⟨more, hmore, hright⟩ := hoperand _ _ _ hrest hr
      have hg := hsound.derives hrest hr hmore
      have hlen : st₁.rest.length < bound := length_lt_of_append hmore hrest
      have hfirst' : first ∈ (us ++ t :: more).head? := by
        rw [List.head?_append, Option.mem_def.mp hfirst]
        rfl
      have hchain' : Chain g rel (kinds (us ++ t :: more))
          (Expr.erase (.binary left op right (st₁.spanFrom first))) := by
        rw [kinds_append, kinds_cons]
        exact .next hchain (hop _ _ hk) hg
      have hbehind : st₁.Behind (us ++ t :: more) := (hright.behind.append [t]).append us
      have hrow : Row (Covers levels) (us ++ t :: more) [.expr left, .expr right] :=
        hlaid.row.append (hright.row.behind_gap [t])
      obtain ⟨used, hused, hlaid'⟩ := ih _ _ _ _ hlen h _ hfirst' hchain'
        (laid_of_behind rfl hfirst' hbehind (hlift _ _ hchain') hrow)
      refine ⟨t :: more ++ used, ?_, ?_⟩
      · rw [after_rest] at hmore
        rw [hst, hmore, hused]
        simp
      · rwa [List.append_assoc] at hlaid'

theorem chain_lays {operand : Reader Expr} {operator : Kind → Option Operator}
    {g : Phrase Expr} {rel : Kind → Operator → Prop} (hsound : Sound bound Expr.erase operand g)
    (hoperand : Lays bound levels (fun e => [.expr e]) operand)
    (hop : ∀ k op, operator k = some op → rel k op)
    (hlift : ∀ ks e, Chain g rel ks e → Expression levels ks e) :
    Lays bound levels (fun e => [.expr e]) (chain ctx operand operator) := by
  intro st e st' hb h
  obtain ⟨left, st₁, hleft, h⟩ := chain_eq_ok h
  obtain ⟨us, hus, hlaid⟩ := hoperand _ _ _ hb hleft
  have hg := hsound.derives hb hleft hus
  have hlen : st₁.rest.length < bound := length_lt_of_append hus hb
  obtain ⟨t, ts, rfl⟩ : ∃ t ts, us = t :: ts :=
    List.exists_cons_of_length_pos hlaid.behind.length_pos
  have hnext : st.next ctx = t := by
    unfold State.next
    rw [hus]
    rfl
  rw [hnext] at h
  obtain ⟨used, hused, hlaid'⟩ :=
    chainRest_lays hsound hoperand hop hlift t _ _ _ _ _ hlen h _ rfl (.first hg) hlaid
  exact ⟨t :: ts ++ used, by rw [hus, hused, List.append_assoc], hlaid'⟩

theorem comparison_lays {inner : Reader Expr} {g : Phrase Expr}
    (hsound : Sound bound Expr.erase inner g)
    (hinner : Lays bound levels (fun e => [.expr e]) inner)
    (hlift : ∀ ks e, Comparison g ks e → Expression levels ks e) :
    Lays bound levels (fun e => [.expr e]) (comparison ctx inner) := by
  have hprimary : Sound bound Expr.erase (primary ctx inner) (Primary g) := primary_sound hsound
  have hterm : Sound bound Expr.erase (chain ctx (primary ctx inner) multiplication) (Term g) :=
    chain_sound hprimary fun _ _ => multiplication_isFactor
  have hsum : Sound bound Expr.erase
      (chain ctx (chain ctx (primary ctx inner) multiplication) addition) (Sum g) :=
    chain_sound hterm fun _ _ => addition_isAddend
  refine chain_lays hsum ?_ (fun _ _ => equality_isEquality) hlift
  refine chain_lays hterm ?_ (fun _ _ => addition_isAddend) fun ks e h => hlift ks e (.first h)
  refine chain_lays hprimary ?_ (fun _ _ => multiplication_isFactor)
    fun ks e h => hlift ks e (.first (.first h))
  exact primary_lays hinner fun ks e h => hlift ks e (.first (.first (.first h)))

theorem expression_lays (d : Nat) (hd : d ≤ levels) :
    Lays bound levels (fun e => [.expr e]) (expression ctx d) := by
  induction d with
  | zero =>
    intro st e st' _ h
    cases h
  | succ d ih =>
    intro st e st' hb h
    have hsound := @expression_sound ctx bound
    rcases expression_eq_ok h with ⟨t, a, rest, n, v, hst, ht, ha, hv, rfl⟩ | hcomparison
    · have hrest : rest.length < bound := by
        simp only [hst, List.length_cons] at hb
        omega
      obtain ⟨used, hused, hlaid⟩ := ih (by omega) _ _ _ hrest hv
      rw [after_rest] at hused
      have hus : st.rest = ([t, a] ++ used) ++ st'.rest := by simp [hst, hused]
      have hbehind : st'.Behind ([t, a] ++ used) := hlaid.behind.append [t, a]
      have hderived : Expression levels (kinds ([t, a] ++ used))
          (Expr.erase (.assign n v (st'.spanFrom t))) := ((hsound (d + 1)).derives hb h hus).mono hd
      exact ⟨[t, a] ++ used, hus,
        laid_of_behind rfl rfl hbehind hderived (hlaid.row.behind_gap [t, a])⟩
    · refine comparison_lays (hsound d) (ih (by omega)) (fun ks e hg => ?_) _ _ _ hb hcomparison
      have hexpression : Expression (d + 1) ks e := .comparison hg
      exact hexpression.mono hd

/-! ### Statements -/

theorem blockRest_lays {item : Reader Stmt}
    (hitem : Lays bound levels (fun s => [.stmt s]) item) :
    ∀ n st ss st', st.rest.length < bound → st.rest.length < n →
      blockRest ctx item n st = .ok (ss, st') →
      ∃ used, st.rest = used ++ st'.rest ∧ Laid levels used (ss.map .stmt) st' := by
  intro n
  induction n with
  | zero =>
    intro st ss st' _ hn
    omega
  | succ n ih =>
    intro st ss st' hb hn h
    rcases blockRest_eq_ok h with ⟨t, rest, hst, hk, rfl, rfl⟩ | ⟨s, st₁, ss', hs, hss, rfl⟩
    · exact ⟨[t], hst, behind_after [] t rest, .nil _⟩
    · obtain ⟨us, hus, hlaid⟩ := hitem _ _ _ hb hs
      have hpos : 0 < us.length := hlaid.behind.length_pos
      have hlen := congrArg List.length hus
      rw [List.length_append] at hlen
      obtain ⟨used, hused, hlaid'⟩ := ih _ _ _ (by omega) (by omega) hss
      exact ⟨us ++ used, by rw [hus, hused, List.append_assoc], hlaid'.behind.append us,
        hlaid.row.append hlaid'.row⟩

theorem skipSemicolon_behind (h : st.Behind us) :
    ∃ semi, st.rest = semi ++ (skipSemicolon st).rest ∧ (skipSemicolon st).Behind (us ++ semi) := by
  rcases skipSemicolon_cases st with ⟨heq, -⟩ | ⟨t, rest, hst, -, heq⟩
  · exact ⟨[], by rw [heq]; rfl, by rwa [heq, List.append_nil]⟩
  · exact ⟨[t], by rw [heq]; exact hst, by rw [heq]; exact behind_after us t rest⟩

/-- What a statement ends with. -/
theorem semicolon_behind (us : List Token) (h : semicolon ctx st = .ok st') :
    ∃ t, st.rest = [t] ++ st'.rest ∧ st'.Behind (us ++ [t]) := by
  obtain ⟨t, rest, hst, -, rfl⟩ := sign_eq_ok h
  exact ⟨t, hst, behind_after us t rest⟩

theorem statement_lays (d : Nat) (hd : d ≤ levels + 1) :
    Lays ctx.bound levels (fun s => [.stmt s]) (statement ctx d) := by
  induction d with
  | zero =>
    intro st s st' _ h
    cases h
  | succ d ih =>
    intro st s st' hb h
    have hsound := @statement_sound ctx
    have hderives : ∀ us, st.rest = us ++ st'.rest → (Node.stmt s).Derived levels (kinds us) :=
      fun us hus => ((hsound (d + 1)).derives hb h hus).mono hd
    obtain ⟨t, rest, hst, hstep⟩ := statement_eq_ok h
    have hrest : rest.length < ctx.bound := by
      simp only [hst, List.length_cons] at hb
      omega
    have hexpr := @expression_lays ctx ctx.bound levels d (by omega)
    have hinner := ih (by omega)
    cases hstep with
    | declare hk hn ha he hs =>
      obtain ⟨t₁, rest₁, h₁, -, rfl⟩ := variableName_eq_ok hn
      obtain ⟨t₂, rest₂, h₂, -, rfl⟩ := sign_eq_ok ha
      simp only [after_rest] at h₁ h₂
      obtain ⟨used, hused, hlaid⟩ := hexpr _ _ _ (by simp [h₁, h₂] at hrest ⊢; omega) he
      obtain ⟨t₃, h₃, hbehind⟩ := semicolon_behind ([t, t₁, t₂] ++ used) hs
      rw [after_rest] at hused
      have hus : st.rest = ([t, t₁, t₂] ++ used ++ [t₃]) ++ st'.rest := by
        simp [hst, h₁, h₂, hused, h₃]
      exact ⟨_, hus, laid_of_behind rfl rfl hbehind (hderives _ hus)
        ((hlaid.row.behind_gap [t, t₁, t₂]).before_gap [t₃])⟩
    | speak hk he hs =>
      obtain ⟨used, hused, hlaid⟩ := hexpr _ _ _ hrest he
      obtain ⟨t₁, h₁, hbehind⟩ := semicolon_behind ([t] ++ used) hs
      rw [after_rest] at hused
      have hus : st.rest = ([t] ++ used ++ [t₁]) ++ st'.rest := by simp [hst, hused, h₁]
      exact ⟨_, hus, laid_of_behind rfl rfl hbehind (hderives _ hus)
        ((hlaid.row.behind_gap [t]).before_gap [t₁])⟩
    | input hk hn hs =>
      obtain ⟨t₁, rest₁, h₁, -, rfl⟩ := variableName_eq_ok hn
      obtain ⟨t₂, h₂, hbehind⟩ := semicolon_behind [t, t₁] hs
      simp only [after_rest] at h₁ h₂
      have hus : st.rest = ([t, t₁] ++ [t₂]) ++ st'.rest := by simp [hst, h₁, h₂]
      exact ⟨_, hus, laid_of_behind rfl rfl hbehind (hderives _ hus) (.nil _)⟩
    | branch hk ho he hc hbody =>
      rename_i c body st₁ st₂ st₃ st₄
      obtain ⟨t₁, rest₁, h₁, -, rfl⟩ := sign_eq_ok ho
      rw [after_rest] at h₁
      obtain ⟨cond, hcond, hlaid⟩ := hexpr _ _ _ (by simp [h₁] at hrest ⊢; omega) he
      obtain ⟨t₂, rest₂, h₂, -, rfl⟩ := sign_eq_ok hc
      rw [after_rest] at hcond
      obtain ⟨used, hused, hlaid'⟩ := hinner _ _ _ (by simp [h₁, hcond, h₂] at hrest ⊢; omega) hbody
      rw [after_rest] at hused
      obtain ⟨semi, hsemi, hbehind⟩ :=
        skipSemicolon_behind (hlaid'.behind.append ([t, t₁] ++ cond ++ [t₂]))
      have hus : st.rest = ([t, t₁] ++ cond ++ [t₂] ++ used ++ semi) ++
          (skipSemicolon st₄).rest := by
        simp [hst, h₁, hcond, h₂, hused, ← hsemi]
      have hboth := ((hlaid.row.behind_gap [t, t₁]).before_gap [t₂]).append hlaid'.row
      exact ⟨_, hus, laid_of_behind rfl rfl hbehind (hderives _ hus) (hboth.before_gap semi)⟩
    | loop hk hbody =>
      rename_i body st₁
      obtain ⟨used, hused, hlaid⟩ := hinner _ _ _ hrest hbody
      rw [after_rest] at hused
      obtain ⟨semi, hsemi, hbehind⟩ := skipSemicolon_behind (hlaid.behind.append [t])
      have hus : st.rest = ([t] ++ used ++ semi) ++ (skipSemicolon st₁).rest := by
        simp [hst, hused, ← hsemi]
      exact ⟨_, hus, laid_of_behind rfl rfl hbehind (hderives _ hus)
        ((hlaid.row.behind_gap [t]).before_gap semi)⟩
    | exit hk hs =>
      obtain ⟨t₁, h₁, hbehind⟩ := semicolon_behind [t] hs
      rw [after_rest] at h₁
      have hus : st.rest = ([t] ++ [t₁]) ++ st'.rest := by simp [hst, h₁]
      exact ⟨_, hus, laid_of_behind rfl rfl hbehind (hderives _ hus) (.nil _)⟩
    | block hk hbody =>
      rename_i body st₁
      obtain ⟨used, hused, hlaid⟩ :=
        blockRest_lays hinner _ _ _ _ hrest hrest hbody
      rw [after_rest] at hused
      -- the block ends with its brace, whether or not a semicolon follows
      have hbehind : st₁.Behind ([t] ++ used) := hlaid.behind.append [t]
      obtain ⟨semi, hsemi, hbehind'⟩ := skipSemicolon_behind hbehind
      have hderived : Statement (levels + 1) (kinds ([t] ++ used))
          (Stmt.erase (.block body (st₁.spanFrom t))) := by
        obtain ⟨inside, t₁, hinside, hk₁, hg⟩ := blockRest_sound (hsound d)
          (fun ks s hs he => by obtain ⟨k, more, hks, -⟩ := hs.head; simp [he] at hks)
          _ _ _ _ hrest hrest hbody
        obtain rfl : used = inside ++ [t₁] := by
          refine List.append_cancel_right (hused.symm.trans ?_)
          rw [after_rest] at hinside
          simp [hinside]
        have hform : Statement (d + 1)
            (.sign .openBrace :: kinds inside ++ .sign .closeBrace :: []) _ :=
          Form.block hg .absent
        refine Statement.mono hd ?_
        simpa [hk, hk₁, Stmt.erase] using hform
      have hcovers : Covers levels ([t] ++ used) (.stmt (.block body (st₁.spanFrom t))) :=
        covers_of_behind rfl rfl hbehind hderived (hlaid.row.behind_gap [t])
      exact ⟨[t] ++ used ++ semi, by simp [hst, hused, ← hsemi], hbehind',
        (Row.single hcovers).before_gap semi⟩
    | express _ _ he hs =>
      obtain ⟨used, hused, hlaid⟩ := hexpr _ _ _ hb he
      obtain ⟨t₁, h₁, hbehind⟩ := semicolon_behind used hs
      have hus : st.rest = (used ++ [t₁]) ++ st'.rest := by simp [hused, h₁]
      have hfirst : t ∈ (used ++ [t₁]).head? := by
        obtain ⟨u, us, rfl⟩ := List.exists_cons_of_length_pos hlaid.behind.length_pos
        rw [hst] at hus
        obtain rfl : t = u := (List.cons_eq_cons.mp hus).1
        rfl
      exact ⟨_, hus, laid_of_behind rfl hfirst hbehind (hderives _ hus) (hlaid.row.before_gap [t₁])⟩

theorem statements_row {item : Reader Stmt}
    (hitem : Lays bound levels (fun s => [.stmt s]) item) :
    ∀ n st ss, st.rest.length < bound → st.rest.length < n → statements item n st = .ok ss →
      Row (Covers levels) st.rest (ss.map .stmt) := by
  intro n
  induction n with
  | zero =>
    intro st ss _ hn
    omega
  | succ n ih =>
    intro st ss hb hn h
    rcases statements_eq_ok h with ⟨-, rfl⟩ | ⟨s, st₁, ss', hs, hss, rfl⟩
    · exact .nil _
    · obtain ⟨us, hus, hlaid⟩ := hitem _ _ _ hb hs
      have hpos : 0 < us.length := hlaid.behind.length_pos
      have hlen := congrArg List.length hus
      rw [List.length_append] at hlen
      rw [hus]
      exact hlaid.row.append (ih _ _ (by omega) (by omega) hss)

/-! ## The nodes of a program -/

/-- **Every node of a program has a stretch of the program's tokens.** -/
theorem exists_covers {p : List Stmt} {ts : List Token} {n : Node}
    (hrow : Row (Covers levels) ts (p.map .stmt)) (hn : n.Of p) :
    ∃ pre us post, ts = pre ++ (us ++ post) ∧ Covers levels us n := by
  induction hn with
  | top hs => exact hrow.exists_stretch (List.mem_map_of_mem hs)
  | child _ hn ih =>
    obtain ⟨pre, us, post, rfl, hcovers⟩ := ih
    cases hcovers with
    | node _ _ _ hrow =>
      obtain ⟨pre', us', post', rfl, hcovers⟩ := hrow.exists_stretch hn
      exact ⟨pre ++ pre', us', post' ++ post, by simp only [List.append_assoc], hcovers⟩

/-! ## Tokens in order -/

/-- The tokens lie one behind the other, and none of them is empty. -/
structure Ordered (ts : List Token) : Prop where
  proper : ∀ t ∈ ts, t.span.start.offset < t.span.stop.offset
  pairwise : ts.Pairwise fun t u => t.span.Before u.span

namespace Ordered

variable {pre post : List Token} {span inner : Span}

theorem sublist {vs : List Token} (h : Ordered us) (hvs : vs.Sublist us) : Ordered vs :=
  ⟨fun t ht => h.proper t (hvs.subset ht), h.pairwise.sublist hvs⟩

theorem stretch (h : Ordered (pre ++ (us ++ post))) : Ordered us :=
  h.sublist ((List.sublist_append_left us post).trans (List.sublist_append_right pre _))

/-- Every token lies inside the span of all of them. -/
theorem inside (h : Ordered us) (hus : Spans us span) (ht : t ∈ us) : t.span.Inside span := by
  obtain ⟨first, hfirst, last, hlast, rfl⟩ := hus
  refine ⟨?_, ?_⟩
  · obtain ⟨rest, rfl⟩ := List.head?_eq_some_iff.mp hfirst
    rcases List.mem_cons.mp ht with rfl | ht
    · exact Nat.le_refl _
    · have hproper := h.proper first List.mem_cons_self
      have hbefore : first.span.Before t.span := List.rel_of_pairwise_cons h.pairwise ht
      exact Nat.le_trans (Nat.le_of_lt hproper) hbefore
  · obtain ⟨init, rfl⟩ := List.getLast?_eq_some_iff.mp hlast
    rcases List.mem_append.mp ht with hinit | hend
    · have hproper := h.proper last (by simp)
      have hbefore : t.span.Before last.span :=
        (List.pairwise_append.mp h.pairwise).2.2 t hinit last (by simp)
      exact Nat.le_trans hbefore (Nat.le_of_lt hproper)
    · obtain rfl := List.mem_singleton.mp hend
      exact Nat.le_refl _

theorem proper_span (h : Ordered us) (hus : Spans us span) :
    span.start.offset < span.stop.offset := by
  have hinside : ∀ t ∈ us, t.span.Inside span := fun t ht => h.inside hus ht
  obtain ⟨first, hfirst, _⟩ := hus
  have hmem : first ∈ us := List.mem_of_mem_head? hfirst
  calc span.start.offset
    _ ≤ first.span.start.offset := (hinside first hmem).start
    _ < first.span.stop.offset := h.proper first hmem
    _ ≤ span.stop.offset := (hinside first hmem).stop

/-- The span of a stretch of the tokens lies inside the span of all of them. -/
theorem stretch_inside (h : Ordered (pre ++ (us ++ post)))
    (hspan : Spans (pre ++ (us ++ post)) span) (hinner : Spans us inner) : inner.Inside span := by
  obtain ⟨first, hfirst, last, hlast, rfl⟩ := hinner
  have hmem : ∀ t ∈ us, t ∈ pre ++ (us ++ post) := fun t ht => by simp [ht]
  have hstart := h.inside hspan (hmem first (List.mem_of_mem_head? hfirst))
  have hstop := h.inside hspan (hmem last (List.mem_of_getLast? hlast))
  exact ⟨hstart.start, hstop.stop⟩

end Ordered

theorem Covers.exists_span {n : Node} (h : Covers levels us n) :
    ∃ span, n.span = some span ∧ Spans us span := by
  cases h with
  | node hspan hus _ _ => exact ⟨_, hspan, hus⟩

/-- The children of a node lie inside it. -/
theorem Covers.inside {m n : Node} (h : Covers levels us m) (hus : Ordered us)
    (hn : n ∈ m.children) {outer inner : Span} (houter : m.span = some outer)
    (hinner : n.span = some inner) : inner.Inside outer := by
  cases h with
  | node hspan hspans _ hrow =>
    obtain ⟨pre, vs, post, rfl, hcovers⟩ := hrow.exists_stretch hn
    obtain ⟨span, hspan', hvs⟩ := hcovers.exists_span
    cases houter.symm.trans hspan
    cases hinner.symm.trans hspan'
    exact hus.stretch_inside hspans hvs

/-- What stands in a row lies in order. -/
theorem Row.pairwise_before {ts : List Token} {ns : List Node} (h : Row (Covers levels) ts ns)
    (hts : Ordered ts) :
    ns.Pairwise fun m n => ∀ a ∈ m.span, ∀ b ∈ n.span, a.Before b := by
  induction h with
  | nil gap => exact .nil
  | @cons gap us rest m ns hm hns ih =>
    have hrest : Ordered rest :=
      hts.sublist ((List.sublist_append_right us rest).trans (List.sublist_append_right gap _))
    refine List.pairwise_cons.mpr ⟨fun n hn a ha b hb => ?_, ih hrest⟩
    obtain ⟨pre, vs, post, rfl, hcovers⟩ := hns.exists_stretch hn
    obtain ⟨_, hspan, _, _, last, hlast, rfl⟩ := hm.exists_span
    obtain ⟨_, hspan', first, hfirst, _, _, rfl⟩ := hcovers.exists_span
    cases ha.symm.trans hspan
    cases hb.symm.trans hspan'
    have hacross := (List.pairwise_append.mp (List.pairwise_append.mp hts.pairwise).2.1).2.2
    exact hacross last (List.mem_of_getLast? hlast) first
      (by simp [List.mem_of_mem_head? hfirst])

end Parse

end DialogueScript
