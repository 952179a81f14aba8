import DialogueScript.Proofs.SteadyReaders

/-!
# Tokens at other places

No reader looks at locations; it only hands them on.  So tokens that stand elsewhere are read as the
same trees with spans elsewhere, or refused for the same reason elsewhere.

* `Token.relocate`, `Expr.relocate`, `Stmt.relocate` — tokens and trees with other locations;
* `Alike` — results that are related, or failures with the same fault at the other place;
* `ReadsAlike` — readers that do with relocated tokens what they do with the tokens themselves;
* `expression_alike`, `statement_alike` — **all readers of the language do so**, in any context with
  the relocated end, and wherever the last token was read before;
* `statements_alike` — so rows of statements are relocated statement by statement.
-/

namespace DialogueScript

/-! ## Other locations -/

def Span.relocate (move : Location → Location) (s : Span) : Span :=
  { s with start := move s.start, stop := move s.stop }

def Token.relocate (move : Location → Location) (t : Token) : Token :=
  { t with span := t.span.relocate move }

def Expr.relocate (move : Location → Location) : Expr → Expr
  | .assign n v s => .assign n (v.relocate move) (s.map (Span.relocate move))
  | .binary l op r s => .binary (l.relocate move) op (r.relocate move) (s.map (Span.relocate move))
  | .literal v s => .literal v (s.map (Span.relocate move))
  | .name n s => .name n (s.map (Span.relocate move))
  | .stray label fields => .stray label fields

mutual

def Stmt.relocate (move : Location → Location) : Stmt → Stmt
  | .block body s => .block (Stmt.relocateAll move body) (s.map (Span.relocate move))
  | .express e s => .express (e.relocate move) (s.map (Span.relocate move))
  | .branch c body s =>
    .branch (c.relocate move) (body.relocate move) (s.map (Span.relocate move))
  | .loop body s => .loop (body.relocate move) (s.map (Span.relocate move))
  | .speak e s => .speak (e.relocate move) (s.map (Span.relocate move))
  | .input n s => .input n (s.map (Span.relocate move))
  | .declare n e s => .declare n (e.relocate move) (s.map (Span.relocate move))
  | .exit s => .exit (s.map (Span.relocate move))
  | .stray label fields => .stray label fields

def Stmt.relocateAll (move : Location → Location) : List Stmt → List Stmt
  | [] => []
  | stmt :: rest => stmt.relocate move :: Stmt.relocateAll move rest

end

/-- The same fault, at the place where its span is moved. -/
structure Failure.Moved (move : Location → Location) (f f' : Failure) : Prop where
  fault : f'.fault = f.fault
  span : f'.span = f.span.map (Span.relocate move)

theorem Span.relocate_id : Span.relocate id = id := rfl

theorem Expr.relocate_id (e : Expr) : e.relocate id = e := by
  induction e with
  | assign n v s ih => rw [relocate, ih, Span.relocate_id, Option.map_id_fun, id]
  | binary l op r s ihl ihr => rw [relocate, ihl, ihr, Span.relocate_id, Option.map_id_fun, id]
  | literal v s => rw [relocate, Span.relocate_id, Option.map_id_fun, id]
  | name n s => rw [relocate, Span.relocate_id, Option.map_id_fun, id]
  | stray label fields => rfl

mutual

theorem Stmt.relocate_id : ∀ stmt : Stmt, stmt.relocate id = stmt
  | .block body s => by
    rw [relocate, relocateAll_id, Span.relocate_id, Option.map_id_fun, id]
  | .express e s => by rw [relocate, e.relocate_id, Span.relocate_id, Option.map_id_fun, id]
  | .branch c body s => by
    rw [relocate, c.relocate_id, body.relocate_id, Span.relocate_id, Option.map_id_fun, id]
  | .loop body s => by rw [relocate, body.relocate_id, Span.relocate_id, Option.map_id_fun, id]
  | .speak e s => by rw [relocate, e.relocate_id, Span.relocate_id, Option.map_id_fun, id]
  | .input n s => by rw [relocate, Span.relocate_id, Option.map_id_fun, id]
  | .declare n e s => by rw [relocate, e.relocate_id, Span.relocate_id, Option.map_id_fun, id]
  | .exit s => by rw [relocate, Span.relocate_id, Option.map_id_fun, id]
  | .stray label fields => rfl

theorem Stmt.relocateAll_id : ∀ p : List Stmt, Stmt.relocateAll id p = p
  | [] => rfl
  | stmt :: rest => by rw [relocateAll, stmt.relocate_id, relocateAll_id rest]

end

theorem Token.relocate_id : Token.relocate id = id := rfl

namespace Parse

open Grammar

/-! ## Readers side by side -/

variable {α β γ δ : Type} {move : Location → Location}

def State.relocate (move : Location → Location) (st : State) : State :=
  ⟨st.rest.map (Token.relocate move), move st.last⟩

/-- Related results, or the same failure at the other place. -/
inductive Alike (move : Location → Location) (R : α → β → Prop) :
    Except Failure α → Except Failure β → Prop
  | ok {a : α} {b : β} (h : R a b) : Alike move R (.ok a) (.ok b)
  | error {f f' : Failure} (h : f.Moved move f') : Alike move R (.error f) (.error f')

theorem Alike.bind {R : α → β → Prop} {S : γ → δ → Prop} {x : Except Failure α}
    {y : Except Failure β} {k : α → Except Failure γ} {l : β → Except Failure δ}
    (h : Alike move R x y) (hk : ∀ a b, R a b → Alike move S (k a) (l b)) :
    Alike move S (x >>= k) (y >>= l) := by
  cases h with
  | ok h => exact hk _ _ h
  | error h => exact .error h

theorem Alike.imp {R S : α → β → Prop} {x : Except Failure α} {y : Except Failure β}
    (h : Alike move R x y) (hRS : ∀ a b, R a b → S a b) : Alike move S x y := by
  cases h with
  | ok h => exact .ok (hRS _ _ h)
  | error h => exact .error h

/-- The other reader's result is the relocated one.  Fewer than `n` tokens are left. -/
structure Read (move : Location → Location) (g : α → α) (n : Nat) (p p' : α × State) : Prop where
  value : p'.1 = g p.1
  state : p'.2 = p.2.relocate move
  less : p.2.rest.length < n

theorem Read.mono {g : α → α} {n m : Nat} {p p' : α × State} (h : Read move g n p p')
    (hnm : n ≤ m) : Read move g m p p' := ⟨h.value, h.state, Nat.lt_of_lt_of_le h.less hnm⟩

/-- With fewer than `n` tokens, the readers do alike before tokens and before the relocated tokens,
and take one of them at least.  It makes no difference where the last token was read before. -/
def ReadsAlike (move : Location → Location) (g : α → α) (n : Nat) (r r' : Reader α) : Prop :=
  ∀ (rest : List Token) (last last' : Location), rest.length < n →
    Alike move (Read move g rest.length) (r ⟨rest, last⟩)
      (r' ⟨rest.map (Token.relocate move), last'⟩)

/-- The end of the one text is the relocated end of the other. -/
def Context.Moved (move : Location → Location) (ctx ctx' : Context) : Prop :=
  ctx'.finish = ctx.finish.relocate move

theorem kinds_relocate (ts : List Token) : kinds (ts.map (Token.relocate move)) = kinds ts := by
  rw [kinds, kinds, List.map_map]
  rfl

variable {ctx ctx' : Context} {n : Nat}

section

variable (hctx : ctx.Moved move ctx') (rest : List Token) (last last' : Location)

include hctx

theorem expected_moved (what : String) : (ctx.expected what ⟨rest, last⟩).Moved move
    (ctx'.expected what ⟨rest.map (Token.relocate move), last'⟩) := by
  cases rest with
  | nil =>
    show Failure.Moved move ⟨_, some ctx.finish.span, _⟩ ⟨_, some ctx'.finish.span, _⟩
    rw [show ctx'.finish = _ from hctx]
    exact ⟨rfl, rfl⟩
  | cons t rest => exact ⟨rfl, rfl⟩

theorem next_relocate : State.next ctx' ⟨rest.map (Token.relocate move), last'⟩ =
    (State.next ctx ⟨rest, last⟩).relocate move := by
  cases rest with
  | nil => exact hctx
  | cons t rest => rfl

theorem tooDeep_moved : (ctx.tooDeep ⟨rest, last⟩).Moved move
    (ctx'.tooDeep ⟨rest.map (Token.relocate move), last'⟩) := by
  refine ⟨rfl, ?_⟩
  show some (State.next ctx' _).span = _
  rw [next_relocate hctx rest last last']
  rfl

theorem sign_alike (s : Sign) (what : String) :
    Alike move (fun st st' => st' = st.relocate move ∧ st.rest.length < rest.length)
      (sign ctx s what ⟨rest, last⟩)
      (sign ctx' s what ⟨rest.map (Token.relocate move), last'⟩) := by
  have hexpected := expected_moved hctx rest last last' what
  cases rest with
  | nil => exact .error hexpected
  | cons t rest =>
    show Alike move _ (if t.kind = .sign s then _ else _) (if t.kind = .sign s then _ else _)
    split
    · exact .ok ⟨rfl, Nat.lt_succ_self _⟩
    · exact .error hexpected

end

theorem variableName_alike (hctx : ctx.Moved move ctx') :
    ReadsAlike move id n (variableName ctx) (variableName ctx') := by
  intro rest last last' _
  have hexpected := expected_moved hctx rest last last' "variable name"
  cases rest with
  | nil => exact .error hexpected
  | cons t rest =>
    obtain ⟨kind, lexeme, span⟩ := t
    cases kind with
    | name n => exact .ok ⟨rfl, rfl, Nat.lt_succ_self _⟩
    | _ => exact .error hexpected

theorem skipSemicolon_relocate (st : State) :
    skipSemicolon (st.relocate move) = (skipSemicolon st).relocate move ∧
      (skipSemicolon st).rest.length ≤ st.rest.length := by
  obtain ⟨rest, last⟩ := st
  cases rest with
  | nil => exact ⟨rfl, Nat.le_refl _⟩
  | cons t rest =>
    have hleft : skipSemicolon (State.relocate move ⟨t :: rest, last⟩) =
        if t.kind = .sign .semicolon then (State.after t rest).relocate move
        else State.relocate move ⟨t :: rest, last⟩ := rfl
    have hright : skipSemicolon ⟨t :: rest, last⟩ =
        if t.kind = .sign .semicolon then State.after t rest else ⟨t :: rest, last⟩ := rfl
    rw [hleft, hright]
    split
    · exact ⟨rfl, Nat.le_succ _⟩
    · exact ⟨rfl, Nat.le_refl _⟩

/-! ## Expressions -/

section

variable {inner inner' operand operand' : Reader Expr}

theorem primary_alike (hctx : ctx.Moved move ctx')
    (hinner : ReadsAlike move (Expr.relocate move) n inner inner') :
    ReadsAlike move (Expr.relocate move) n (primary ctx inner) (primary ctx' inner') := by
  intro rest last last' hn
  have hexpected := expected_moved hctx rest last last' "expression"
  cases rest with
  | nil => exact .error hexpected
  | cons t rest =>
    obtain ⟨kind, lexeme, span⟩ := t
    cases kind with
    | number x => exact .ok ⟨rfl, rfl, Nat.lt_succ_self _⟩
    | text s => exact .ok ⟨rfl, rfl, Nat.lt_succ_self _⟩
    | name m => exact .ok ⟨rfl, rfl, Nat.lt_succ_self _⟩
    | sign s =>
      cases s with
      | openParen =>
        refine (hinner rest span.stop (move span.stop) (Nat.lt_of_succ_lt hn)).bind ?_
        rintro ⟨e, ⟨rest₁, last₁⟩⟩ ⟨_, _⟩ ⟨rfl, rfl, hless⟩
        refine (sign_alike hctx rest₁ last₁ (move last₁) .closeParen "')'").bind ?_
        rintro st _ ⟨rfl, hless'⟩
        exact .ok ⟨rfl, rfl, Nat.lt_trans hless' (Nat.lt_succ_of_lt hless)⟩
      | _ => exact .error hexpected
    | _ => exact .error hexpected

/-- Both bounds suffice, so neither is used up. -/
theorem chainRest_alike (hoperand : ReadsAlike move (Expr.relocate move) n operand operand')
    (operator : Kind → Option Operator) (first : Token) {b b' : Nat} (left : Expr)
    (rest : List Token) (last : Location) (hn : rest.length ≤ n) (hb : rest.length < b)
    (hb' : rest.length < b') :
    Alike move (Read move (Expr.relocate move) (rest.length + 1))
      (chainRest operand operator first b left ⟨rest, last⟩)
      (chainRest operand' operator (first.relocate move) b' (left.relocate move)
        ⟨rest.map (Token.relocate move), move last⟩) := by
  induction b generalizing b' left rest last with
  | zero => omega
  | succ b ih =>
    obtain ⟨b', rfl⟩ : ∃ m, b' = m + 1 := ⟨b' - 1, by omega⟩
    cases rest with
    | nil => exact .ok ⟨rfl, rfl, Nat.succ_pos _⟩
    | cons t rest =>
      have hop : operator (t.relocate move).kind = operator t.kind := rfl
      rw [List.map_cons]
      unfold chainRest
      dsimp only
      rw [hop]
      cases operator t.kind with
      | none => exact .ok ⟨rfl, rfl, Nat.lt_succ_self _⟩
      | some op =>
        rw [List.length_cons] at hn hb hb'
        have hright := hoperand rest t.span.stop (t.relocate move).span.stop (by omega)
        dsimp only [State.after]
        generalize operand ⟨rest, t.span.stop⟩ = x,
          operand' ⟨rest.map (Token.relocate move), (t.relocate move).span.stop⟩ = y at hright ⊢
        cases hright with
        | error h => exact .error h
        | @ok p p' hp =>
          obtain ⟨right, ⟨rest₁, last₁⟩⟩ := p
          obtain ⟨_, _⟩ := p'
          obtain ⟨rfl, rfl, hless⟩ := hp
          dsimp only at hless ⊢
          refine (ih (.binary left op right (State.spanFrom ⟨rest₁, last₁⟩ first)) rest₁ last₁
            (by omega) (by omega) (by omega)).imp fun _ _ h => h.mono ?_
          rw [List.length_cons]
          omega

theorem chain_alike (hctx : ctx.Moved move ctx')
    (hoperand : ReadsAlike move (Expr.relocate move) n operand operand') (hn : n ≤ ctx.bound)
    (hn' : n ≤ ctx'.bound) (operator : Kind → Option Operator) :
    ReadsAlike move (Expr.relocate move) n (chain ctx operand operator)
      (chain ctx' operand' operator) := by
  intro rest last last' hlen
  have hleft := hoperand rest last last' hlen
  unfold chain
  rw [next_relocate hctx rest last last']
  generalize operand ⟨rest, last⟩ = x,
    operand' ⟨rest.map (Token.relocate move), last'⟩ = y at hleft ⊢
  cases hleft with
  | error h => exact .error h
  | @ok p p' hp =>
    obtain ⟨left, ⟨rest₁, last₁⟩⟩ := p
    obtain ⟨_, _⟩ := p'
    obtain ⟨rfl, rfl, hless⟩ := hp
    dsimp only at hless ⊢
    exact (chainRest_alike hoperand operator _ left rest₁ last₁ (by omega) (by omega)
      (by omega)).imp fun _ _ h => h.mono hless

theorem comparison_alike (hctx : ctx.Moved move ctx')
    (hinner : ReadsAlike move (Expr.relocate move) n inner inner') (hn : n ≤ ctx.bound)
    (hn' : n ≤ ctx'.bound) :
    ReadsAlike move (Expr.relocate move) n (comparison ctx inner) (comparison ctx' inner') :=
  chain_alike hctx (chain_alike hctx (chain_alike hctx (primary_alike hctx hinner) hn hn' _)
    hn hn' _) hn hn' _

end

section

variable (hctx : ctx.Moved move ctx') (hn : n ≤ ctx.bound) (hn' : n ≤ ctx'.bound)

include hctx hn hn'

theorem expression_alike (levels : Nat) :
    ReadsAlike move (Expr.relocate move) n (expression ctx levels) (expression ctx' levels) := by
  induction levels with
  | zero => exact fun rest last last' _ => .error (tooDeep_moved hctx rest last last')
  | succ levels ih =>
    intro rest last last' hlen
    have hcomparison := comparison_alike hctx ih hn hn' rest last last' hlen
    cases hplain : startsAssignment (kinds rest) with
    | false =>
      have hplain' : startsAssignment (kinds (rest.map (Token.relocate move))) = false := by
        rw [kinds_relocate]
        exact hplain
      have hread : expression ctx (levels + 1) ⟨rest, last⟩ = _ := expression_of_plain hplain
      have hread' : expression ctx' (levels + 1) ⟨rest.map (Token.relocate move), last'⟩ = _ :=
        expression_of_plain hplain'
      rw [hread, hread']
      exact hcomparison
    | true =>
      obtain ⟨t, a, rest, m, rfl, ht, ha⟩ := exists_of_startsAssignment hplain
      have hvalue := ih rest a.span.stop (a.relocate move).span.stop
        (Nat.lt_of_succ_lt (Nat.lt_of_succ_lt hlen))
      have ht' : (t.relocate move).kind = .name m := ht
      have ha' : (a.relocate move).kind = .sign .assign := ha
      simp only [List.map_cons, expression, ht, ha, ht', ha', State.after]
      generalize expression ctx levels ⟨rest, a.span.stop⟩ = x,
        expression ctx' levels ⟨rest.map (Token.relocate move), (a.relocate move).span.stop⟩ = y
        at hvalue ⊢
      cases hvalue with
      | error h => exact .error h
      | @ok p p' hp =>
        obtain ⟨v, st₁⟩ := p
        obtain ⟨_, _⟩ := p'
        obtain ⟨rfl, rfl, hless⟩ := hp
        exact .ok ⟨rfl, rfl, Nat.lt_succ_of_lt (Nat.lt_succ_of_lt hless)⟩

/-! ## Statements -/

omit hn hn' in
/-- Both bounds suffice, so neither is used up. -/
theorem blockRest_alike {item item' : Reader Stmt}
    (hitem : ReadsAlike move (Stmt.relocate move) n item item') {b b' : Nat} (rest : List Token)
    (last last' : Location) (hlen : rest.length < n) (hb : rest.length < b)
    (hb' : rest.length < b') :
    Alike move (Read move (Stmt.relocateAll move) rest.length)
      (blockRest ctx item b ⟨rest, last⟩)
      (blockRest ctx' item' b' ⟨rest.map (Token.relocate move), last'⟩) := by
  induction b generalizing b' rest last last' with
  | zero => omega
  | succ b ih =>
    obtain ⟨b', rfl⟩ : ∃ m, b' = m + 1 := ⟨b' - 1, by omega⟩
    have hexpected := expected_moved hctx rest last last' "'\x7d'"
    have hfirst := hitem rest last last' hlen
    cases rest with
    | nil => exact .error hexpected
    | cons t rest =>
      have hk : (t.relocate move).kind = t.kind := rfl
      rw [List.map_cons] at hfirst ⊢
      unfold blockRest
      dsimp only
      rw [hk]
      split
      · exact .ok ⟨rfl, rfl, Nat.lt_succ_self _⟩
      · generalize item ⟨t :: rest, last⟩ = x,
          item' ⟨t.relocate move :: rest.map (Token.relocate move), last'⟩ = y at hfirst ⊢
        cases hfirst with
        | error h => exact .error h
        | @ok p p' hp =>
          obtain ⟨s, ⟨rest₁, last₁⟩⟩ := p
          obtain ⟨_, _⟩ := p'
          obtain ⟨rfl, rfl, hless⟩ := hp
          dsimp only [State.relocate] at hless ⊢
          have hmore := @ih b' rest₁ last₁ (move last₁) (by omega) (by omega) (by omega)
          generalize blockRest ctx item b ⟨rest₁, last₁⟩ = x,
            blockRest ctx' item' b' ⟨rest₁.map (Token.relocate move), move last₁⟩ = y at hmore ⊢
          cases hmore with
          | error h => exact .error h
          | @ok p p' hp =>
            obtain ⟨ss, st₂⟩ := p
            obtain ⟨_, _⟩ := p'
            obtain ⟨rfl, rfl, hless'⟩ := hp
            exact .ok ⟨rfl, rfl, Nat.lt_trans hless' hless⟩

omit hn hn' in
/-- A semicolon, and a statement with its span from the first token on. -/
theorem semicolon_alike {g g' : Option Span → Stmt}
    (hg : ∀ s, g' (s.map (Span.relocate move)) = (g s).relocate move) (t : Token)
    (rest : List Token) (last last' : Location) :
    Alike move (Read move (Stmt.relocate move) rest.length)
      (semicolon ctx ⟨rest, last⟩ >>= fun st => pure (g (st.spanFrom t), st))
      (semicolon ctx' ⟨rest.map (Token.relocate move), last'⟩ >>= fun st =>
        pure (g' (st.spanFrom (t.relocate move)), st)) := by
  refine (sign_alike hctx rest last last' _ _).bind ?_
  rintro st _ ⟨rfl, hless⟩
  exact .ok ⟨hg (st.spanFrom t), rfl, hless⟩

theorem statement_alike (levels : Nat) :
    ReadsAlike move (Stmt.relocate move) n (statement ctx levels) (statement ctx' levels) := by
  induction levels with
  | zero => exact fun rest last last' _ => .error (tooDeep_moved hctx rest last last')
  | succ levels ih =>
    intro rest last last' hlen
    have hexpected := expected_moved hctx rest last last' "expression"
    have hexpr := expression_alike hctx hn hn' levels
    have hplain := hexpr rest last last' hlen
    cases rest with
    | nil => exact .error hexpected
    | cons t rest =>
      have hless : rest.length < n := Nat.lt_of_succ_lt hlen
      have hshort : rest.length < (t :: rest).length := Nat.lt_succ_self _
      by_cases hform : ∃ w, t.kind = .keyword w
      · obtain ⟨w, hk⟩ := hform
        have hk' : (t.relocate move).kind = .keyword w := hk
        simp only [List.map_cons, statement, hk, hk', State.after]
        cases w with
        | declare =>
          refine (variableName_alike hctx rest _ _ hless).bind ?_
          rintro ⟨m, ⟨rest₁, last₁⟩⟩ ⟨_, _⟩ ⟨hm, rfl, h₁⟩
          cases hm
          refine (sign_alike hctx rest₁ last₁ (move last₁) _ _).bind ?_
          rintro ⟨rest₂, last₂⟩ _ ⟨rfl, h₂⟩
          dsimp only at h₁ h₂
          refine (hexpr rest₂ last₂ (move last₂) (by omega)).bind ?_
          rintro ⟨e, ⟨rest₃, last₃⟩⟩ ⟨_, _⟩ ⟨rfl, rfl, h₃⟩
          dsimp only at h₃
          exact (semicolon_alike hctx (fun _ => rfl) t rest₃ last₃ (move last₃)).imp
            fun _ _ h => h.mono (by omega)
        | function => exact .error ⟨rfl, rfl⟩
        | speak =>
          refine (hexpr rest _ _ hless).bind ?_
          rintro ⟨e, ⟨rest₁, last₁⟩⟩ ⟨_, _⟩ ⟨rfl, rfl, h₁⟩
          dsimp only at h₁
          exact (semicolon_alike hctx (fun _ => rfl) t rest₁ last₁ (move last₁)).imp
            fun _ _ h => h.mono (by omega)
        | input =>
          refine (variableName_alike hctx rest _ _ hless).bind ?_
          rintro ⟨m, ⟨rest₁, last₁⟩⟩ ⟨_, _⟩ ⟨hm, rfl, h₁⟩
          cases hm
          dsimp only at h₁
          exact (semicolon_alike hctx (fun _ => rfl) t rest₁ last₁ (move last₁)).imp
            fun _ _ h => h.mono (by omega)
        | branch =>
          refine (sign_alike hctx rest _ _ _ _).bind ?_
          rintro ⟨rest₁, last₁⟩ _ ⟨rfl, h₁⟩
          dsimp only at h₁
          refine (hexpr rest₁ last₁ (move last₁) (by omega)).bind ?_
          rintro ⟨c, ⟨rest₂, last₂⟩⟩ ⟨_, _⟩ ⟨rfl, rfl, h₂⟩
          refine (sign_alike hctx rest₂ last₂ (move last₂) _ _).bind ?_
          rintro ⟨rest₃, last₃⟩ _ ⟨rfl, h₃⟩
          dsimp only at h₂ h₃
          refine (ih rest₃ last₃ (move last₃) (by omega)).bind ?_
          rintro ⟨body, st₄⟩ ⟨_, _⟩ ⟨rfl, rfl, h₄⟩
          obtain ⟨hskip, hle⟩ := @skipSemicolon_relocate move st₄
          dsimp only at h₄ ⊢
          rw [hskip]
          exact .ok ⟨rfl, rfl, Nat.lt_of_le_of_lt hle (by omega)⟩
        | exit =>
          exact (semicolon_alike hctx (fun _ => rfl) t rest _ _).imp fun _ _ h => h.mono (by omega)
        | loop =>
          refine (ih rest _ _ hless).bind ?_
          rintro ⟨body, st₁⟩ ⟨_, _⟩ ⟨rfl, rfl, h₁⟩
          obtain ⟨hskip, hle⟩ := @skipSemicolon_relocate move st₁
          dsimp only at h₁ ⊢
          rw [hskip]
          exact .ok ⟨rfl, rfl, Nat.lt_of_le_of_lt hle (by omega)⟩
      by_cases hbrace : t.kind = .sign .openBrace
      · have hbrace' : (t.relocate move).kind = .sign .openBrace := hbrace
        simp only [List.map_cons, statement, hbrace, hbrace', State.after]
        refine (blockRest_alike hctx ih rest _ _ hless (by omega) (by omega)).bind ?_
        rintro ⟨body, st₁⟩ ⟨_, _⟩ ⟨rfl, rfl, h₁⟩
        obtain ⟨hskip, hle⟩ := @skipSemicolon_relocate move st₁
        dsimp only at h₁ ⊢
        rw [hskip]
        exact .ok ⟨rfl, rfl, Nat.lt_of_le_of_lt hle (by omega)⟩
      · have hform' : ∀ w, t.kind ≠ .keyword w := not_exists.mp hform
        rw [List.map_cons] at hplain ⊢
        rw [statement_express hform' hbrace]
        rw [@statement_express ctx' levels (t.relocate move) _ last' hform' hbrace]
        refine hplain.bind ?_
        rintro ⟨e, ⟨rest₁, last₁⟩⟩ ⟨_, _⟩ ⟨rfl, rfl, h₁⟩
        dsimp only at h₁
        exact (semicolon_alike hctx (fun _ => rfl) t rest₁ last₁ (move last₁)).imp
          fun _ _ h => h.mono (by omega)

end

/-- Both bounds suffice, so neither is used up. -/
theorem statements_alike {item item' : Reader Stmt}
    (hitem : ReadsAlike move (Stmt.relocate move) n item item') {b b' : Nat} (rest : List Token)
    (last last' : Location) (hlen : rest.length < n) (hb : rest.length < b)
    (hb' : rest.length < b') :
    Alike move (fun ss ss' => ss' = Stmt.relocateAll move ss) (statements item b ⟨rest, last⟩)
      (statements item' b' ⟨rest.map (Token.relocate move), last'⟩) := by
  induction b generalizing b' rest last last' with
  | zero => omega
  | succ b ih =>
    obtain ⟨b', rfl⟩ : ∃ m, b' = m + 1 := ⟨b' - 1, by omega⟩
    have hfirst := hitem rest last last' hlen
    cases rest with
    | nil => exact .ok rfl
    | cons t rest =>
      rw [List.map_cons] at hfirst ⊢
      unfold statements
      dsimp only
      generalize item ⟨t :: rest, last⟩ = x,
        item' ⟨t.relocate move :: rest.map (Token.relocate move), last'⟩ = y at hfirst ⊢
      cases hfirst with
      | error h => exact .error h
      | @ok p p' hp =>
        obtain ⟨s, ⟨rest₁, last₁⟩⟩ := p
        obtain ⟨_, _⟩ := p'
        obtain ⟨rfl, rfl, hless⟩ := hp
        dsimp only [State.relocate] at hless ⊢
        have hmore := @ih b' rest₁ last₁ (move last₁) (by omega) (by omega) (by omega)
        generalize statements item b ⟨rest₁, last₁⟩ = x,
          statements item' b' ⟨rest₁.map (Token.relocate move), move last₁⟩ = y at hmore ⊢
        cases hmore with
        | error h => exact .error h
        | ok h =>
          rw [h]
          exact .ok rfl

end Parse

end DialogueScript
