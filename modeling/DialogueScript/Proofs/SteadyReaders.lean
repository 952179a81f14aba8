import DialogueScript.Proofs.Lookahead

/-!
# The readers look one token ahead

Every reader of the language is steady in the sense of `Proofs.Lookahead`, with the rows that the
grammar derives.  A row that is cut off may need one level more than were used so far, so the rows
of a reader with some levels are those of the grammar with one level more.

* `Operand`, `primary_operand`, `chain_operand` — the levels of an expression that group to the
  left;
* `assignment_settled`, `plain_settled` — the two kinds of expression, told apart by two tokens;
* `expression_steady`, `statement_steady` — **all readers of the language are steady**;
* `statements_blamed` — why whole rows of statements are refused.
-/

namespace DialogueScript.Parse

open Grammar

variable {G : Rows} {ctx : Context} {st : State} {f : Failure}

/-! ## Expressions -/

/-- A reader of expressions of a kind, which are never empty and which it finds missing at the end
of the tokens. -/
structure Operand (g : Phrase Expr) (r : Context → Reader Expr) : Prop where
  steady : Steady (.of g) r
  some : (Rows.of g).Some
  filled : ∀ ks e, g ks e → ks ≠ []
  atEnd : ∀ ctx last, r ctx ⟨[], last⟩ = .error (ctx.expected "expression" ⟨[], last⟩)

theorem Operand.ne_nil {g : Phrase Expr} {r : Context → Reader Expr} (h : Operand g r) :
    ∀ ks, Rows.of g ks → ks ≠ [] := by
  rintro ks ⟨e, he⟩
  exact h.filled ks e he

theorem primary_operand {inner : Context → Reader Expr} {g : Phrase Expr}
    (hinner : Steady (.of g) inner) :
    Operand (Primary g) fun ctx => primary ctx (inner ctx) where
  some := ⟨_, _, .name "x"⟩
  filled ks e h := by cases h <;> simp
  atEnd ctx last := rfl
  steady := by
    have hsome : (Rows.of (Primary g)).Some := ⟨_, _, .name "x"⟩
    rintro ctx ⟨_ | ⟨t, rest⟩, last⟩ hb
    · exact .atEnd "expression" rfl hsome
    · by_cases hstart : StartsExpression t.kind
      · generalize hk : t.kind = k at hstart
        cases hstart with
        | number x =>
          exact .taken (fun _ _ => primary_of_step rfl (.number hk))
            (by rw [hk]; exact ⟨_, .number x⟩)
        | text s =>
          exact .taken (fun _ _ => primary_of_step rfl (.text hk)) (by rw [hk]; exact ⟨_, .text s⟩)
        | name n =>
          exact .taken (fun _ _ => primary_of_step rfl (.name hk)) (by rw [hk]; exact ⟨_, .name n⟩)
        | openParen =>
          have hclose : ∀ e : Expr, Steady ((Rows.one (.sign .closeParen)).next .empty)
              fun ctx st => sign ctx .closeParen "')'" st >>= fun st => pure (e, st) :=
            fun e => .sign _ _ .empty (.done fun _ _ _ => rfl)
          have hclosed := hinner.bind (.next (.one _) .empty) hclose
          refine Settled.behind [t] t.span.stop hb (fun ctx' rest' _ => ?_) ?_
            (hclosed ctx (.after t rest) (Nat.lt_of_succ_lt hb))
          · simp only [List.singleton_append, primary, hk]
            rfl
          · rintro _ ⟨us, _, rfl, ⟨e, he⟩, _, _, rfl, rfl, rfl⟩
            rw [kinds_cons, hk]
            exact ⟨e, .parens he⟩
      · refine .refused (.unexpectedToken "expression" t.text) (.inl rfl)
          (fun ctx' rest' => ?_) hsome
        unfold primary
        dsimp only
        split
        · rename_i x hk
          exact absurd (hk ▸ .number x) hstart
        · rename_i s hk
          exact absurd (hk ▸ .text s) hstart
        · rename_i n hk
          exact absurd (hk ▸ .name n) hstart
        · rename_i hk
          exact absurd (hk ▸ .openParen) hstart
        · rfl

/-- What can stand behind a chain to go on with it. -/
def ChainRows (g : Phrase Expr) (rel : Kind → Operator → Prop) : Rows := fun ls =>
  ∀ ks e, Chain g rel ks e → ∃ e', Chain g rel (ks ++ ls) e'

section

variable {g : Phrase Expr} {rel : Kind → Operator → Prop} {operand : Context → Reader Expr}
  {operator : Kind → Option Operator}

theorem ChainRows.nil : ChainRows g rel [] := fun ks e h => ⟨e, by rwa [List.append_nil]⟩

theorem ChainRows.cons {k : Kind} {op : Operator} (hk : rel k op) {ks : List Kind}
    (h : ((Rows.of g).next (ChainRows g rel)) ks) : ChainRows g rel (k :: ks) := by
  obtain ⟨us, vs, rfl, ⟨e, he⟩, htail⟩ := h
  intro ls l hl
  obtain ⟨e', h'⟩ := htail _ _ (.next hl hk he)
  exact ⟨e', by simpa using h'⟩

/-- Where no operator comes next, a chain ends. -/
theorem chainRest_stop {r : Reader Expr} {first : Token} {left : Expr} (n : Nat)
    (h : ∀ t ∈ st.rest.head?, operator t.kind = none) :
    chainRest r operator first n left st = .ok (left, st) := by
  cases n with
  | zero => rfl
  | succ n =>
    unfold chainRest
    split
    · rfl
    · rename_i t rest hst
      rw [h t (by simp [hst])]

/-- Rounds beyond the number of tokens make no difference. -/
theorem chainRest_bound (hoperand : Operand g operand) (first : Token) (n m : Nat) (left : Expr)
    (hn : st.rest.length < n) (hm : st.rest.length < m) (hb : st.rest.length < ctx.bound) :
    chainRest (operand ctx) operator first n left st =
      chainRest (operand ctx) operator first m left st := by
  induction n generalizing m left st with
  | zero => omega
  | succ n ih =>
    obtain ⟨m, rfl⟩ : ∃ m', m = m' + 1 := ⟨m - 1, by omega⟩
    unfold chainRest
    split
    · rfl
    · rename_i t rest hst
      split
      · rfl
      · rw [hst, List.length_cons] at hn hm hb
        have hb' : (State.after t rest).rest.length < ctx.bound := Nat.lt_of_succ_lt hb
        split
        · rfl
        · rename_i right st₁ hright
          have hless := (hoperand.steady ctx _ hb').shorter hoperand.ne_nil hright
          rw [after_rest] at hless hb'
          exact ih m _ (by omega) (by omega) (by omega)

theorem chainRest_settled (hoperand : Operand g operand)
    (hop : ∀ k op, operator k = some op → rel k op) (first : Token) (left : Expr) (st : State)
    (hb : st.rest.length < ctx.bound) :
    Settled (ChainRows g rel)
      (fun ctx => chainRest (operand ctx) operator first ctx.bound left) ctx st := by
  induction hlen : st.rest.length using Nat.strongRecOn generalizing left st with
  | _ len ih =>
    by_cases hstop : ∀ t ∈ st.rest.head?, operator t.kind = none
    · refine ⟨fun a st' ha => ?_, fun f hf => ?_⟩
      · rw [chainRest_stop _ hstop] at ha
        cases ha
        refine ⟨[], rfl, .nil, fun ctx' rest _ _ hhead => ?_⟩
        exact chainRest_stop _ fun t ht => hstop t (by rwa [← hhead])
      · rw [chainRest_stop _ hstop] at hf
        cases hf
    · obtain ⟨rest, last⟩ := st
      obtain ⟨t, rest, rfl, op, hk⟩ : ∃ t rest', rest = t :: rest' ∧
          ∃ op, operator t.kind = some op := by
        cases rest with
        | nil => simp at hstop
        | cons t rest => exact ⟨t, rest, rfl, Option.ne_none_iff_exists'.mp (by simpa using hstop)⟩
      -- an operand, and a shorter chain behind it
      have hround : ∀ ctx' rest', (t :: rest').length < ctx'.bound →
          chainRest (operand ctx') operator first ctx'.bound left ⟨t :: rest', last⟩ =
            operand ctx' (.after t rest') >>= fun p => chainRest (operand ctx') operator first
              ctx'.bound (.binary left op p.1 (p.2.spanFrom first)) p.2 := by
        intro ctx' rest' hb'
        rw [List.length_cons] at hb'
        obtain ⟨n, hn⟩ : ∃ n, ctx'.bound = n + 1 := ⟨ctx'.bound - 1, by omega⟩
        rw [hn, chainRest]
        simp only [hk]
        cases hright : operand ctx' (.after t rest') with
        | error f => rfl
        | ok p =>
          have hsettled := hoperand.steady ctx' (.after t rest') (by rw [after_rest]; omega)
          have hless := hsettled.shorter hoperand.ne_nil hright
          rw [after_rest] at hless
          exact chainRest_bound hoperand first n (n + 1) _ (by omega) (by omega) (by omega)
      have hb' : (State.after t rest).rest.length < ctx.bound := Nat.lt_of_succ_lt hb
      have hrest := (hoperand.steady ctx (.after t rest) hb').bind
        (k := fun right ctx st => chainRest (operand ctx) operator first ctx.bound
          (.binary left op right (st.spanFrom first)) st) ⟨_, ChainRows.nil⟩
        fun right st₁ hright => by
          have hless := (hoperand.steady ctx _ hb').shorter hoperand.ne_nil hright
          rw [after_rest] at hless hb'
          have h := ih _ (by rw [← hlen, List.length_cons]; omega)
            (.binary left op right (st₁.spanFrom first)) st₁ (by omega) rfl
          exact ⟨h.ok, h.error⟩
      exact Settled.behind (k := fun ctx st => operand ctx st >>= fun p => chainRest (operand ctx)
        operator first ctx.bound (.binary left op p.1 (p.2.spanFrom first)) p.2) [t]
        t.span.stop hb hround
        (fun ks hks => .cons (hop _ _ hk) hks) hrest

theorem chain_operand (hoperand : Operand g operand)
    (hop : ∀ k op, operator k = some op → rel k op) :
    Operand (Chain g rel) fun ctx => chain ctx (operand ctx) operator where
  some := by
    obtain ⟨ks, e, he⟩ := hoperand.some
    exact ⟨ks, e, .first he⟩
  filled ks e h := h.ne_nil hoperand.filled
  atEnd ctx last := by
    unfold chain
    rw [hoperand.atEnd]
  steady := by
    obtain ⟨ks₀, e₀, he₀⟩ := hoperand.some
    rintro ctx ⟨_ | ⟨t, rest⟩, last⟩ hb
    · refine .atEnd "expression" ?_ ⟨ks₀, e₀, .first he₀⟩
      unfold chain
      rw [hoperand.atEnd]
    · -- the first token is known, so the operand and the rest are read one after the other
      have hread := (hoperand.steady ctx ⟨t :: rest, last⟩ hb).bind
        (k := fun left ctx st => chainRest (operand ctx) operator t ctx.bound left st)
        ⟨_, ChainRows.nil⟩ fun left st₁ hleft => by
          have hless := (hoperand.steady ctx _ hb).shorter hoperand.ne_nil hleft
          exact chainRest_settled hoperand hop t left st₁ (Nat.lt_trans hless hb)
      have hrows : ∀ ks, ((Rows.of g).next (ChainRows g rel)) ks → Rows.of (Chain g rel) ks := by
        rintro _ ⟨us, vs, rfl, ⟨e, he⟩, htail⟩
        exact htail us e (.first he)
      have hfilled : ∀ ks, Rows.of (Chain g rel) ks → ks ≠ [] := by
        rintro ks ⟨e, he⟩
        exact he.ne_nil hoperand.filled
      refine Settled.peek hb hfilled (fun ctx' rest' _ => ?_) (hread.mono hrows)
      unfold chain
      cases operand ctx' ⟨t :: rest', last⟩ <;> rfl

end

theorem comparison_operand {inner : Context → Reader Expr} {g : Phrase Expr}
    (hinner : Steady (.of g) inner) :
    Operand (Comparison g) fun ctx => comparison ctx (inner ctx) :=
  chain_operand
    (chain_operand
      (chain_operand (primary_operand hinner) fun _ _ => multiplication_isFactor)
      fun _ _ => addition_isAddend)
    fun _ _ => equality_isEquality

/-- A name is an expression inside any number of levels but none. -/
theorem expression_some (levels : Nat) : (Rows.of (Expression (levels + 1))).Some :=
  ⟨[.name "x"], _, .comparison (.first (.first (.first (.name "x"))))⟩

/-- A name alone is a comparison. -/
theorem comparison_name {inner : Reader Expr} {t : Token} {n : String} {last : Location}
    (ht : t.kind = .name n) :
    comparison ctx inner ⟨[t], last⟩ = .ok (.name n (some t.span), .after t []) := by
  have hprimary : primary ctx inner ⟨[t], last⟩ = .ok (.name n (some t.span), .after t []) :=
    primary_of_step rfl (.name ht)
  have hstop : ∀ (r : Reader Expr) operator (first : Token) m (e : Expr),
      chainRest r operator first m e (.after t []) = .ok (e, .after t []) :=
    fun r operator first m e => chainRest_stop m (by simp)
  simp only [comparison, chain, hprimary, hstop]

/-- The first two tokens tell whether a row begins like an assignment. -/
theorem startsAssignment_congr {ts us : List Token} (h : us.take 2 = ts.take 2) :
    startsAssignment (kinds us) = startsAssignment (kinds ts) := by
  have htake : ∀ ts : List Token,
      startsAssignment (kinds ts) = startsAssignment (kinds (ts.take 2)) := by
    rintro (_ | ⟨t, _ | ⟨u, ts⟩⟩)
    · rfl
    · rfl
    · simp only [List.take_succ_cons, List.take_zero, kinds_cons]
      cases t.kind with
      | name n =>
        cases u.kind with
        | sign s => cases s <;> rfl
        | _ => rfl
      | _ => rfl
  rw [htake us, htake ts, h]

theorem take_two_append (t : Token) (used : List Token) {rest rest' : List Token}
    (h : rest'.head? = rest.head?) :
    (t :: used ++ rest').take 2 = (t :: used ++ rest).take 2 := by
  cases used with
  | cons u used => rfl
  | nil =>
    cases rest with
    | nil => rw [List.head?_eq_none_iff.mp h]
    | cons u rest =>
      obtain ⟨rest', rfl⟩ := List.head?_eq_some_iff.mp h
      rfl

theorem exists_of_startsAssignment {ts : List Token} (h : startsAssignment (kinds ts) = true) :
    ∃ t a rest n, ts = t :: a :: rest ∧ t.kind = .name n ∧ a.kind = .sign .assign := by
  unfold startsAssignment at h
  split at h
  · rename_i n _ heq
    obtain ⟨t, us, rfl, ht, hus⟩ := kinds_eq_cons heq
    obtain ⟨a, rest, rfl, ha, -⟩ := kinds_eq_cons hus
    exact ⟨t, a, rest, n, rfl, ht, ha⟩
  · cases h

/-- A name and a sign of assignment are taken, whatever value follows. -/
theorem assignment_settled {levels : Nat}
    (hvalue : Steady (.of (Expression (levels + 1))) fun ctx => expression ctx levels)
    {ts : List Token} {last : Location} (hb : ts.length < ctx.bound)
    (hassign : startsAssignment (kinds ts) = true) :
    Settled (.of (Expression (levels + 2))) (fun ctx => expression ctx (levels + 1)) ctx
      ⟨ts, last⟩ := by
  obtain ⟨t, a, rest, n, rfl, ht, ha⟩ := exists_of_startsAssignment hassign
  have hb' : (State.after a rest).rest.length < ctx.bound :=
    Nat.lt_of_succ_lt (Nat.lt_of_succ_lt hb)
  have hread := (hvalue ctx (.after a rest) hb').map
    (g := fun v st => Expr.assign n v (st.spanFrom t)) hb' fun v st st' h => by
      simp only [State.spanFrom, h]
  refine Settled.behind [t, a] a.span.stop hb (fun ctx' rest' _ => ?_) ?_ hread
  · simp only [List.cons_append, List.nil_append, expression, ht, ha, State.after]
    cases expression ctx' levels ⟨rest', a.span.stop⟩ <;> rfl
  · rintro us ⟨v, hv⟩
    simp only [kinds_cons, ht, ha]
    exact ⟨_, .assign n hv⟩

/-- Tokens that are refused as a comparison do not begin like an assignment, whatever follows. -/
theorem plain_of_refused {inner : Reader Expr} {pre post post' : List Token} {t : Token}
    {last : Location} {f : Failure}
    (hplain : startsAssignment (kinds (pre ++ t :: post)) = false)
    (hrefused : comparison ctx inner ⟨pre ++ [t], last⟩ = .error f) :
    startsAssignment (kinds (pre ++ t :: post')) = false := by
  cases pre with
  | nil =>
    -- a name as the first token is not refused
    cases ht : t.kind with
    | name n =>
      rw [List.nil_append, comparison_name ht] at hrefused
      cases hrefused
    | _ => simp [startsAssignment, ht]
  | cons u pre =>
    have htwo : (u :: pre ++ t :: post').take 2 = (u :: pre ++ t :: post).take 2 :=
      take_two_append u pre rfl
    exact (startsAssignment_congr htwo).trans hplain

/-- What does not begin like an assignment is read as a comparison, and goes on not to. -/
theorem plain_settled {levels : Nat} {ts : List Token} {last : Location}
    (hcomparison : Operand (Comparison (Expression (levels + 1))) fun ctx =>
      comparison ctx (expression ctx levels))
    (hb : ts.length < ctx.bound) (hplain : startsAssignment (kinds ts) = false) :
    Settled (.of (Expression (levels + 2))) (fun ctx => expression ctx (levels + 1)) ctx
      ⟨ts, last⟩ where
  ok e st' he := by
    rw [expression_of_plain hplain] at he
    obtain ⟨used, hused, ⟨e', hgram⟩, hall⟩ := (hcomparison.steady ctx ⟨ts, last⟩ hb).ok e st' he
    refine ⟨used, hused, ⟨e', .comparison hgram⟩, fun ctx' rest' hsource hlength hhead => ?_⟩
    obtain ⟨u, used, rfl⟩ := List.exists_cons_of_ne_nil fun h : used = [] =>
      hcomparison.filled _ _ hgram (by simp [h])
    rw [expression_of_plain]
    · exact hall ctx' rest' hsource hlength hhead
    · rw [startsAssignment_congr (take_two_append u used hhead), ← hused]
      exact hplain
  error f hf := by
    rw [expression_of_plain hplain] at hf
    have hmono : ∀ ks, Begins (.of (Comparison (Expression (levels + 1)))) ks →
        Begins (.of (Expression (levels + 2))) ks := by
      refine fun ks => .mono ?_
      rintro ks ⟨e, he⟩
      exact ⟨e, .comparison he⟩
    cases (hcomparison.steady ctx ⟨ts, last⟩ hb).error f hf with
    | tooDeep h => exact .tooDeep h
    | atEnd h hbegins => exact .atEnd h (hmono _ hbegins)
    | atToken pre t post hts hspan hcode hbegins hagain =>
      subst hts
      refine .atToken pre t post rfl hspan hcode (hmono _ hbegins) ?_
      intro ctx' post' hsource hlength
      have hrefused := hagain ctx [] rfl (by simp at hb ⊢; omega)
      rw [expression_of_plain (plain_of_refused hplain hrefused)]
      exact hagain ctx' post' hsource hlength

theorem expression_steady (levels : Nat) :
    Steady (.of (Expression (levels + 1))) fun ctx => expression ctx levels := by
  induction levels with
  | zero =>
    refine fun ctx st _ => ⟨?_, fun f hf => ?_⟩
    · intro a st' ha
      cases ha
    · cases hf
      exact .tooDeep rfl
  | succ levels ih =>
    rintro ctx ⟨ts, last⟩ hb
    by_cases hassign : startsAssignment (kinds ts) = true
    · exact assignment_settled ih hb hassign
    · exact plain_settled (comparison_operand ih) hb (Bool.eq_false_iff.mpr hassign)

/-! ## Statements -/

/-- Statements and a closing brace. -/
def BlockRows (g : Phrase Stmt) : Rows :=
  fun ks => ∃ ls ss, ks = ls ++ [.sign .closeBrace] ∧ Many g ls ss

theorem BlockRows.close {g : Phrase Stmt} : BlockRows g [.sign .closeBrace] := ⟨[], [], rfl, .nil⟩

section

variable {g : Phrase Stmt} {item : Context → Reader Stmt}

/-- Rounds beyond the number of tokens make no difference. -/
theorem blockRest_bound (hitem : Steady (.of g) item) (hne : ∀ ks, Rows.of g ks → ks ≠ [])
    (n m : Nat) (hn : st.rest.length < n) (hm : st.rest.length < m)
    (hb : st.rest.length < ctx.bound) :
    blockRest ctx (item ctx) n st = blockRest ctx (item ctx) m st := by
  induction n generalizing m st with
  | zero => omega
  | succ n ih =>
    obtain ⟨m, rfl⟩ : ∃ m', m = m' + 1 := ⟨m - 1, by omega⟩
    unfold blockRest
    split
    · rfl
    · split
      · rfl
      · split
        · rfl
        · rename_i s st₁ hs
          have hless := (hitem ctx st hb).shorter hne hs
          rw [ih m (by omega) (by omega) (by omega)]

theorem blockRest_settled (hitem : Steady (.of g) item) (hne : ∀ ks, Rows.of g ks → ks ≠ [])
    (st : State) (hb : st.rest.length < ctx.bound) :
    Settled (BlockRows g) (fun ctx => blockRest ctx (item ctx) ctx.bound) ctx st := by
  have hfilled : ∀ ks, BlockRows g ks → ks ≠ [] := by
    rintro _ ⟨ls, ss, rfl, -⟩
    simp
  induction hlen : st.rest.length using Nat.strongRecOn generalizing st with
  | _ len ih =>
    obtain ⟨_ | ⟨t, rest⟩, last⟩ := st
    · refine .atEnd "'\x7d'" ?_ ⟨_, .close⟩
      obtain ⟨n, hn⟩ : ∃ n, ctx.bound = n + 1 := ⟨ctx.bound - 1, by simp at hb; omega⟩
      rw [hn, blockRest]
    · by_cases hk : t.kind = .sign .closeBrace
      · refine Settled.behind (k := fun _ st => pure ([], st)) [t] t.span.stop hb
          (fun ctx' rest' hb' => ?_) ?_ (Steady.done (fun _ _ _ => rfl) _ _ (Nat.lt_of_succ_lt hb))
        · obtain ⟨n, hn⟩ : ∃ n, ctx'.bound = n + 1 := ⟨ctx'.bound - 1, by simp at hb'; omega⟩
          simp only [List.singleton_append, hn, blockRest, hk, if_true]
          rfl
        · rintro _ rfl
          rw [kinds_cons, hk]
          exact .close
      · -- a statement, and a shorter block behind it
        have hrest := (hitem ctx ⟨t :: rest, last⟩ hb).bind
          (k := fun s ctx st => blockRest ctx (item ctx) ctx.bound st >>= fun q =>
            pure (s :: q.1, q.2)) ⟨_, BlockRows.close⟩
          fun s st₁ hs => by
            have hless := (hitem ctx _ hb).shorter hne hs
            have hb₁ := Nat.lt_trans hless hb
            exact (ih _ (hlen ▸ hless) st₁ hb₁ rfl).map (g := fun ss _ => s :: ss) hb₁
              fun _ _ _ _ => rfl
        refine Settled.peek hb hfilled (fun ctx' rest' hb' => ?_) (hrest.mono ?_)
        · obtain ⟨n, hn⟩ : ∃ n, ctx'.bound = n + 1 := ⟨ctx'.bound - 1, by simp at hb'; omega⟩
          rw [hn, blockRest]
          simp only [hk, if_false]
          cases hs : item ctx' ⟨t :: rest', last⟩ with
          | error f => rfl
          | ok p =>
            have hless := (hitem ctx' ⟨t :: rest', last⟩ hb').shorter hne hs
            simp only [List.length_cons] at hless hb'
            have heq := blockRest_bound hitem hne n (n + 1) (by omega) (by omega)
              (show p.2.rest.length < ctx'.bound by omega)
            simp only [heq, bind, Except.bind]
            cases blockRest ctx' (item ctx') (n + 1) p.2 <;> rfl
        · rintro _ ⟨us, _, rfl, ⟨s, hs⟩, ls, ss, rfl, hss⟩
          exact ⟨us ++ ls, s :: ss, by simp, .cons hs hss⟩

end

theorem statement_some (levels : Nat) : (Rows.of (Statement (levels + 1))).Some :=
  ⟨_, _, .exit⟩

theorem statement_filled (levels : Nat) : ∀ ks, Rows.of (Statement levels) ks → ks ≠ [] := by
  rintro _ ⟨s, hs⟩ rfl
  obtain ⟨k, more, hks, -⟩ := hs.head
  cases hks

/-- A semicolon, and a statement with its span from the first token on. -/
theorem semicolon_steady (t : Token) (g : Option Span → Stmt) :
    Steady ((Rows.one (.sign .semicolon)).next .empty) fun ctx st =>
      semicolon ctx st >>= fun st => pure (g (st.spanFrom t), st) :=
  .sign _ _ .empty (.done fun _ _ h => by rw [State.spanFrom, State.spanFrom, h])

/-- A statement that its first token decides: the rest is read by a reader of its own. -/
theorem form_settled {levels : Nat} {r : Context → Reader Stmt} {k : Kind} {t : Token}
    {rest : List Token} {last : Location} (hk : t.kind = k) (hb : (t :: rest).length < ctx.bound)
    (hr : Steady G r)
    (hread : ∀ ctx' rest', statement ctx' (levels + 1) ⟨t :: rest', last⟩ = r ctx' (.after t rest'))
    (hrows : ∀ ks, G ks → Rows.of (Statement (levels + 2)) (k :: ks)) :
    Settled (.of (Statement (levels + 2))) (fun ctx => statement ctx (levels + 1)) ctx
      ⟨t :: rest, last⟩ := by
  refine Settled.behind [t] t.span.stop hb (fun ctx' rest' _ => hread ctx' rest') ?_
    (hr ctx (.after t rest) (Nat.lt_of_succ_lt hb))
  intro ks hks
  rw [kinds_cons, hk]
  exact hrows ks hks

/-- Perhaps a semicolon, and a statement with its span up to there. -/
theorem semicolonLast_steady (t : Token) (g : Option Span → Stmt) :
    Steady MaybeSemicolon fun _ st =>
      pure (g ((skipSemicolon st).spanFrom t), skipSemicolon st) :=
  .skipSemicolon (g := fun _ st => g (st.spanFrom t)) fun _ _ _ _ _ h => by
    rw [State.spanFrom, State.spanFrom, h]

/-- Perhaps a semicolon, and a statement with its span up to what stands before. -/
theorem semicolonBehind_steady (t : Token) (g : Option Span → Stmt) :
    Steady MaybeSemicolon fun _ st => pure (g (st.spanFrom t), skipSemicolon st) :=
  .skipSemicolon (g := fun st _ => g (st.spanFrom t)) fun _ _ _ _ h _ => by
    rw [State.spanFrom, State.spanFrom, h]

theorem statement_express {levels : Nat} {t : Token} {rest : List Token} {last : Location}
    (hk : ∀ w, t.kind ≠ .keyword w) (hbrace : t.kind ≠ .sign .openBrace) :
    statement ctx (levels + 1) ⟨t :: rest, last⟩ =
      expression ctx levels ⟨t :: rest, last⟩ >>= fun p =>
        semicolon ctx p.2 >>= fun st => pure (.express p.1 (st.spanFrom t), st) := by
  rw [statement]
  dsimp only
  split
  case h_9 => rfl
  case h_7 => exact absurd ‹_› hbrace
  all_goals exact absurd ‹_› (hk _)

theorem statement_steady (levels : Nat) :
    Steady (.of (Statement (levels + 1))) fun ctx => statement ctx levels := by
  induction levels with
  | zero =>
    refine fun ctx st _ => ⟨?_, fun f hf => ?_⟩
    · intro a st' ha
      cases ha
    · cases hf
      exact .tooDeep rfl
  | succ levels ih =>
    have hexpr := expression_steady levels
    have hsome := statement_some (levels + 1)
    have hsemi : ((Rows.one (.sign .semicolon)).next .empty).Some := .next (.one _) .empty
    have hvalue := (expression_some levels).next hsemi
    rintro ctx ⟨_ | ⟨t, rest⟩, last⟩ hb
    · exact .atEnd "expression" rfl hsome
    by_cases hform : ∃ w, t.kind = .keyword w
    · obtain ⟨w, hk⟩ := hform
      cases w with
      | declare =>
        have hinit := fun n => hexpr.bind hsemi fun e => semicolon_steady t (.declare n e)
        have hname := variableName_steady.bind (.next (.one _) hvalue) fun n =>
          (hinit n).sign .assign "'='" hvalue
        refine form_settled hk hb hname (fun _ _ => by simp only [statement, hk]) ?_
        rintro _ ⟨_, _, rfl, ⟨n, rfl⟩, _, _, rfl, rfl, us, _, rfl, ⟨e, he⟩, _, _, rfl, rfl, rfl⟩
        exact ⟨_, .declare n he⟩
      | function =>
        exact .refused .functionDeclared (.inr rfl) (fun _ _ => by simp only [statement, hk]) hsome
      | speak =>
        have hread := hexpr.bind hsemi fun e => semicolon_steady t (.speak e)
        refine form_settled hk hb hread (fun _ _ => by simp only [statement, hk]) ?_
        rintro _ ⟨us, _, rfl, ⟨e, he⟩, _, _, rfl, rfl, rfl⟩
        exact ⟨_, .speak he⟩
      | input =>
        have hread := variableName_steady.bind hsemi fun n => semicolon_steady t (.input n)
        refine form_settled hk hb hread (fun _ _ => by simp only [statement, hk]) ?_
        rintro _ ⟨us, _, rfl, ⟨n, rfl⟩, _, _, rfl, rfl, rfl⟩
        exact ⟨_, .input n⟩
      | branch =>
        have hmaybe : Rows.Some MaybeSemicolon := ⟨_, .absent⟩
        have hinner := (statement_some levels).next hmaybe
        have hclose := (Rows.Some.one (.sign .closeParen)).next hinner
        have hbody := fun c => ih.bind hmaybe fun body => semicolonLast_steady t (.branch c body)
        have hcondition := hexpr.bind hclose fun c => (hbody c).sign .closeParen "')'" hinner
        have hread := hcondition.sign .openParen "'('" ((expression_some levels).next hclose)
        refine form_settled hk hb hread (fun _ _ => by simp only [statement, hk]) ?_
        rintro _ ⟨_, _, rfl, rfl, cs, _, rfl, ⟨c, hc⟩, _, _, rfl, rfl, us, semi, rfl, ⟨s, hs⟩,
          hsemi⟩
        have h : Statement (levels + 2) _ _ := Form.branch hc hs hsemi
        exact ⟨_, by simpa using h⟩
      | exit =>
        refine form_settled hk hb (semicolon_steady t .exit)
          (fun _ _ => by simp only [statement, hk]) ?_
        rintro _ ⟨us, _, rfl, rfl, rfl⟩
        exact ⟨_, .exit⟩
      | loop =>
        have hread := ih.bind ⟨_, .absent⟩ fun body => semicolonLast_steady t (.loop body)
        refine form_settled hk hb hread (fun _ _ => by simp only [statement, hk]) ?_
        rintro _ ⟨us, semi, rfl, ⟨s, hs⟩, hsemi⟩
        exact ⟨_, .loop hs hsemi⟩
    by_cases hbrace : t.kind = .sign .openBrace
    · have hblock : Steady (BlockRows (Statement (levels + 1)))
          fun ctx => blockRest ctx (statement ctx levels) ctx.bound :=
        fun ctx st hb => blockRest_settled ih (statement_filled _) st hb
      have hread := hblock.bind ⟨_, .absent⟩ fun body => semicolonBehind_steady t (.block body)
      refine form_settled hbrace hb hread (fun _ _ => by simp only [statement, hbrace]) ?_
      rintro _ ⟨_, semi, rfl, ⟨us, ss, rfl, hss⟩, hsemi⟩
      have h : Statement (levels + 2) _ _ := Form.block hss hsemi
      exact ⟨_, by simpa using h⟩
    · have hread := hexpr.bind hsemi fun e => semicolon_steady t (.express e)
      refine Settled.peek hb (statement_filled _) (fun ctx' rest' _ => ?_)
        ((hread ctx ⟨t :: rest, last⟩ hb).mono ?_)
      · exact statement_express (not_exists.mp hform) hbrace
      · rintro _ ⟨us, _, rfl, ⟨e, he⟩, _, _, rfl, rfl, rfl⟩
        exact ⟨_, .express he⟩

/-- Whole rows of statements are refused for the same reasons. -/
theorem statements_blamed {g : Phrase Stmt} {item : Context → Reader Stmt}
    (hitem : Steady (.of g) item) (hne : ∀ ks, Rows.of g ks → ks ≠ []) (n : Nat)
    (hb : st.rest.length < ctx.bound) (h : statements (item ctx) n st = .error f) :
    Blamed (.of (Many g)) ctx st.rest (fun ctx' ts => ∀ m, ts.length < m →
      statements (item ctx') m ⟨ts, st.last⟩ = .error f) f := by
  induction n generalizing st with
  | zero => cases h
  | succ n ih =>
    unfold statements at h
    split at h
    · cases h
    · rename_i t rest hst
      split at h
      · rename_i g' hg'
        cases h
        refine ((hitem ctx st hb).error f hg').imp ?_ ?_
        · rintro ks ⟨more, s, hs⟩
          exact ⟨more, [s], .one hs⟩
        · intro ctx' us _ _ hhead hus m hm
          obtain ⟨u, us, rfl⟩ : ∃ u us', us = u :: us' :=
            ⟨t, List.head?_eq_some_iff.mp (by rw [hhead, hst]; rfl)⟩
          obtain ⟨m, rfl⟩ : ∃ m', m = m' + 1 := ⟨m - 1, by omega⟩
          simp only [statements, hus]
      · rename_i s st₁ hs
        split at h
        · rename_i g' hrest
          cases h
          obtain ⟨used, hused, ⟨s', hgram⟩, hall⟩ := (hitem ctx st hb).ok s st₁ hs
          rw [hused]
          refine (ih (length_lt_of_append hused hb) hrest).behind used ?_ ?_
          · rintro us ⟨more, ss, hss⟩
            exact ⟨more, s' :: ss, by rw [kinds_append, List.append_assoc]; exact .cons hgram hss⟩
          · intro ctx' us hsource hlength hhead hus m hm
            obtain ⟨u, used, rfl⟩ := List.exists_cons_of_ne_nil fun h : used = [] =>
              hne _ ⟨s', hgram⟩ (by simp [h])
            obtain ⟨m, rfl⟩ : ∃ m', m = m' + 1 := ⟨m - 1, by omega⟩
            have hread := hall ctx' us hsource hlength hhead
            have hlast := hus m (by simp at hm; omega)
            rw [List.cons_append] at hread ⊢
            simp only [statements, hread, hlast]
        · cases h

end DialogueScript.Parse
