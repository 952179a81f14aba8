import DialogueScript.Proofs.Relocation

/-!
# Programs in front of more tokens

A program that ends with the text goes on when more tokens stand behind it.  Nothing of it is read
in another way, as long as the first of them is no semicolon: a semicolon would belong to a block, a
branch or a loop at the end.

* `State.followedBy` — the state of a reader with more tokens behind those that are left;
* `Settled.followed` — a reader that leaves a token does the same then;
* `statement_followed` — a statement is read the same, even if it leaves none;
* `statements_followed` — so rows of statements are read one after the other;
* `program_append` — **the statements of a program, and then those of a program further down**.
-/

namespace DialogueScript.Parse

variable {α : Type} {ctx ctx' : Context} {st st' : State} {more : List Token}

def State.followedBy (st : State) (more : List Token) : State := ⟨st.rest ++ more, st.last⟩

theorem sign_followed {s : Sign} {what : String} (h : sign ctx s what st = .ok st') :
    sign ctx' s what (st.followedBy more) = .ok (st'.followedBy more) := by
  obtain ⟨t, rest, hst, hk, rfl⟩ := sign_eq_ok h
  rw [State.followedBy, hst, List.cons_append]
  exact sign_of_kind hk

theorem variableName_followed {n : String} (h : variableName ctx st = .ok (n, st')) :
    variableName ctx' (st.followedBy more) = .ok (n, st'.followedBy more) := by
  obtain ⟨t, rest, hst, hk, rfl⟩ := variableName_eq_ok h
  rw [State.followedBy, hst, List.cons_append]
  exact variableName_of_kind hk

/-- The first of the tokens is no semicolon. -/
def NoSemicolon (more : List Token) : Prop := ∀ t ∈ more.head?, t.kind ≠ .sign .semicolon

theorem skipSemicolon_followed (hmore : NoSemicolon more) (st : State) :
    skipSemicolon (st.followedBy more) = (skipSemicolon st).followedBy more := by
  obtain ⟨_ | ⟨t, rest⟩, last⟩ := st
  · rcases skipSemicolon_cases ⟨more, last⟩ with ⟨heq, -⟩ | ⟨t, rest, hrest, hk, -⟩
    · exact heq
    · exact absurd hk (hmore t (by rw [show more = _ from hrest]; rfl))
  · by_cases hk : t.kind = .sign .semicolon
    · simp [skipSemicolon, State.followedBy, State.after, hk]
    · simp [skipSemicolon, State.followedBy, hk]

/-- A reader that leaves a token does not look beyond it. -/
theorem Settled.followed {G : Rows} {r : Context → Reader α} (h : Settled G r ctx st) {a : α}
    (ha : r ctx st = .ok (a, st')) (hne : st'.rest ≠ []) (hsource : ctx'.source = ctx.source)
    (hb : (st.rest ++ more).length < ctx'.bound) :
    r ctx' (st.followedBy more) = .ok (a, st'.followedBy more) := by
  obtain ⟨used, hused, -, hall⟩ := h.ok a st' ha
  have hrest : st.rest ++ more = used ++ (st'.rest ++ more) := by
    rw [hused, List.append_assoc]
  have hhead : (st'.rest ++ more).head? = st'.rest.head? := by
    cases hst' : st'.rest with
    | nil => exact absurd hst' hne
    | cons t rest => rfl
  rw [State.followedBy, hrest]
  exact hall ctx' _ hsource (hrest ▸ hb) hhead

/-- What a sign can be read from is not empty. -/
theorem rest_ne_nil_of_sign {s : Sign} {what : String} (h : sign ctx s what st = .ok st') :
    st.rest ≠ [] := by
  obtain ⟨t, rest, hst, -⟩ := sign_eq_ok h
  rw [hst]
  exact List.cons_ne_nil t rest

theorem length_lt_of_sign {s : Sign} {what : String} (h : sign ctx s what st = .ok st') :
    st'.rest.length < st.rest.length := by
  obtain ⟨t, rest, hst, -, rfl⟩ := sign_eq_ok h
  rw [hst]
  exact Nat.lt_succ_self _

/-- A statement that goes up to a semicolon that may be left out has the same span. -/
theorem spanFrom_skip_followed (hmore : NoSemicolon more) (st : State) (t : Token) :
    (skipSemicolon (st.followedBy more)).spanFrom t = (skipSemicolon st).spanFrom t := by
  rw [skipSemicolon_followed hmore]
  rfl

/-- The closing brace is the last token that a block needs. -/
theorem blockRest_followed {item item' : Reader Stmt} {n : Nat}
    (hitem : ∀ {st s st'}, st.rest.length < n → item st = .ok (s, st') →
      st'.rest.length < st.rest.length ∧ item' (st.followedBy more) = .ok (s, st'.followedBy more))
    {b b' : Nat} {ss : List Stmt} (h : blockRest ctx item b st = .ok (ss, st'))
    (hn : st.rest.length < n) (hb : st.rest.length < b) (hb' : st.rest.length < b') :
    blockRest ctx' item' b' (st.followedBy more) = .ok (ss, st'.followedBy more) := by
  induction b generalizing b' st ss with
  | zero => omega
  | succ b ih =>
    obtain ⟨b', rfl⟩ : ∃ m, b' = m + 1 := ⟨b' - 1, by omega⟩
    obtain ⟨_ | ⟨t, rest⟩, last⟩ := st
    · cases h
    · unfold blockRest at h ⊢
      simp only [State.followedBy, List.cons_append] at h ⊢
      split at h
      · rename_i hk
        cases h
        simp [hk, State.after]
      · rename_i hk
        split at h
        · cases h
        · rename_i s st₁ hs
          obtain ⟨hless, hfirst⟩ := hitem hn hs
          simp only [State.followedBy, List.cons_append] at hfirst
          dsimp only at hless hn hb hb'
          split at h
          · cases h
          · rename_i ss' st₂ hss
            cases h
            have hrest := @ih st₁ b' ss' hss (by omega) (by omega) (by omega)
            simp only [State.followedBy] at hrest
            simp [hk, hfirst, hrest]

theorem expression_filled (levels : Nat) :
    ∀ ks, Rows.of (Grammar.Expression levels) ks → ks ≠ [] := by
  rintro _ ⟨e, he⟩ rfl
  obtain ⟨k, rest, hks, -⟩ := he.head
  cases hks

theorem statements_of_first {item : Reader Stmt} {b : Nat} {t : Token} {rest : List Token}
    {last : Location} {s : Stmt} (h : item ⟨t :: rest, last⟩ = .ok (s, st')) :
    statements item (b + 1) ⟨t :: rest, last⟩ = (statements item b st').map (s :: ·) := by
  rw [statements]
  simp only [h]
  cases statements item b st' <;> rfl

section

variable (hsource : ctx'.source = ctx.source)

include hsource

theorem expression_followed {levels : Nat} {e : Expr} (h : expression ctx levels st = .ok (e, st'))
    (hne : st'.rest ≠ []) (hb : st.rest.length < ctx.bound)
    (hb' : (st.rest ++ more).length < ctx'.bound) :
    expression ctx' levels (st.followedBy more) = .ok (e, st'.followedBy more) :=
  (expression_steady levels ctx st hb).followed h hne hsource hb'

theorem statement_followed (hmore : NoSemicolon more) {levels : Nat} {s : Stmt}
    (h : statement ctx levels st = .ok (s, st')) (hb : st.rest.length < ctx.bound)
    (hb' : st.rest.length + more.length < ctx'.bound) :
    statement ctx' levels (st.followedBy more) = .ok (s, st'.followedBy more) := by
  induction levels generalizing st st' s with
  | zero => cases h
  | succ levels ih =>
    obtain ⟨t, rest, hst, hstep⟩ := statement_eq_ok h
    have hst' : (st.followedBy more).rest = t :: (rest ++ more) := by
      rw [State.followedBy, hst, List.cons_append]
    rw [hst, List.length_cons] at hb hb'
    -- the rest of a statement reaches up to a semicolon or a closing brace
    have hexpr : ∀ {st₁ st₂ : State} {e : Expr}, st₁.rest.length ≤ rest.length + 1 →
        expression ctx levels st₁ = .ok (e, st₂) → st₂.rest ≠ [] →
        expression ctx' levels (st₁.followedBy more) = .ok (e, st₂.followedBy more) := by
      intro st₁ st₂ e hle he hne
      refine expression_followed hsource he hne (by omega) ?_
      rw [List.length_append]
      omega
    have hafter : (State.after t rest).rest.length = rest.length := rfl
    refine statement_of_step hst' ?_
    cases hstep with
    | declare hk hn ha he hs =>
      obtain ⟨u, rest₁, hu, -, rfl⟩ := variableName_eq_ok hn
      have hless := length_lt_of_sign ha
      have hless' := congrArg List.length hu
      rw [List.length_cons] at hless'
      dsimp only [State.after] at hless hless' hafter
      exact .declare hk (variableName_followed hn) (sign_followed ha)
        (hexpr (by omega) he (rest_ne_nil_of_sign hs)) (sign_followed hs)
    | speak hk he hs =>
      exact .speak hk (hexpr (by omega) he (rest_ne_nil_of_sign hs)) (sign_followed hs)
    | input hk hn hs => exact .input hk (variableName_followed hn) (sign_followed hs)
    | @branch c body st₁ st₂ st₃ st₄ hk ho he hc hbody =>
      have h₁ := length_lt_of_sign ho
      have h₂ := (expression_steady levels ctx st₁ (by omega)).shorter (expression_filled _) he
      have h₃ := length_lt_of_sign hc
      rw [← skipSemicolon_followed hmore, ← spanFrom_skip_followed hmore]
      exact .branch hk (sign_followed ho) (hexpr (by omega) he (rest_ne_nil_of_sign hc))
        (sign_followed hc) (ih hbody (by omega) (by omega))
    | loop hk hbody =>
      rw [← skipSemicolon_followed hmore, ← spanFrom_skip_followed hmore]
      exact .loop hk (ih hbody (by omega) (by omega))
    | exit hk hs => exact .exit hk (sign_followed hs)
    | block hk hbody =>
      rw [← skipSemicolon_followed hmore]
      have hitem : ∀ {st₁ s st₂}, st₁.rest.length < rest.length + 1 →
          statement ctx levels st₁ = .ok (s, st₂) → st₂.rest.length < st₁.rest.length ∧
            statement ctx' levels (st₁.followedBy more) = .ok (s, st₂.followedBy more) := by
        intro st₁ s st₂ hless hs
        refine ⟨?_, ih hs (by omega) (by omega)⟩
        exact (statement_steady levels ctx st₁ (by omega)).shorter (statement_filled _) hs
      exact .block hk (blockRest_followed hitem hbody (by omega) (by omega) (by omega))
    | express hk hbrace he hs =>
      exact .express hk hbrace (hexpr (by simp [hst]) he (rest_ne_nil_of_sign hs))
        (sign_followed hs)

/-- The statements of a program, and then what stands behind them. -/
theorem statements_followed (hmore : NoSemicolon more) {levels b b' : Nat} {p : List Stmt}
    (h : statements (statement ctx levels) b st = .ok p) (hb : st.rest.length < b)
    (hle : st.rest.length < ctx.bound) (hb' : st.rest.length + more.length < b')
    (hle' : st.rest.length + more.length < ctx'.bound) :
    ∃ last m, more.length < m ∧ statements (statement ctx' levels) b' (st.followedBy more) =
      (statements (statement ctx' levels) m ⟨more, last⟩).map (p ++ ·) := by
  induction b generalizing b' st p with
  | zero => omega
  | succ b ih =>
    obtain ⟨_ | ⟨t, rest⟩, last⟩ := st
    · cases h
      refine ⟨last, b', by simpa using hb', ?_⟩
      show statements (statement ctx' levels) b' ⟨more, last⟩ = _
      cases statements (statement ctx' levels) b' ⟨more, last⟩ <;> rfl
    · obtain ⟨b', rfl⟩ : ∃ m, b' = m + 1 := ⟨b' - 1, by omega⟩
      rcases statements_eq_ok h with ⟨hnil, -⟩ | ⟨s, st₁, ss, hs, hss, rfl⟩
      · cases hnil
      · have hless := (statement_steady levels ctx _ hle).shorter (statement_filled _) hs
        have hfirst := statement_followed hsource hmore hs hle hle'
        dsimp only at hless hb hle hb' hle'
        obtain ⟨last', m, hm, hrest⟩ :=
          @ih st₁ b' ss hss (by omega) (by omega) (by omega) (by omega)
        refine ⟨last', m, hm, ?_⟩
        have hall : statements (statement ctx' levels) (b' + 1) ⟨t :: (rest ++ more), last⟩ = _ :=
          statements_of_first hfirst
        rw [hrest] at hall
        refine hall.trans ?_
        cases statements (statement ctx' levels) m ⟨more, last'⟩ <;> rfl

end

/-- **A program in front of another one.**  The tokens of the other one stand further down, and the
first of them is no semicolon.  Then the statements of the two are read one after the other, or the
other one is refused for the reason for which it is refused alone. -/
theorem program_append {move : Location → Location} {nesting : Nat}
    {source source₁ source₂ : Option String} {body₁ body₂ : List Token}
    {finish₁ finish₂ : Token} {p : Program} (h : program nesting source₁ body₁ finish₁ = .ok p) (hmore : NoSemicolon body₂) :
    Alike move (fun p₂ q => q = p ++ Stmt.relocateAll move p₂)
      (program nesting source₂ body₂ finish₂)
      (program nesting source (body₁ ++ body₂.map (Token.relocate move))
        (finish₂.relocate move)) := by
  let more := body₂.map (Token.relocate move)
  let ctx₁ : Context := ⟨finish₁, source, body₁.length + 1⟩
  let ctx₂ : Context := ⟨finish₂, source₂, body₂.length + 1⟩
  let ctx : Context := ⟨finish₂.relocate move, source, (body₁ ++ more).length + 1⟩
  have hlength : more.length = body₂.length := List.length_map _
  have hbound : ctx.bound = body₁.length + more.length + 1 := by simp [ctx]
  -- the first program is the same when errors quote the whole text
  have hfirst :
      statements (statement ctx₁ nesting) (body₁.length + 1) ⟨body₁, {}⟩ = .ok p := by
    have hitem := @statement_alike id ⟨finish₁, source₁, body₁.length + 1⟩ ctx₁ (body₁.length + 1)
      rfl (Nat.le_refl _) (Nat.le_refl _) nesting
    have halike := statements_alike hitem body₁ {} {} (Nat.lt_succ_self _) (Nat.lt_succ_self _)
      (Nat.lt_succ_self _)
    rw [Token.relocate_id, List.map_id, show statements _ _ _ = _ from h] at halike
    generalize statements (statement ctx₁ nesting) (body₁.length + 1) ⟨body₁, {}⟩ = x
      at halike ⊢
    cases halike with
    | ok h => rw [h, Stmt.relocateAll_id]
  have hnone : NoSemicolon more := by
    intro t ht
    cases hbody : body₂ with
    | nil => simp [more, hbody] at ht
    | cons u us =>
      have hu : u.relocate move = t := by simpa [more, hbody] using ht
      rw [← hu]
      exact hmore u (by rw [hbody]; rfl)
  obtain ⟨last, m, hm, hjoined⟩ := @statements_followed ctx₁ ctx ⟨body₁, {}⟩ more rfl hnone
    nesting (body₁.length + 1) ctx.bound p hfirst (Nat.lt_succ_self _) (Nat.lt_succ_self _)
    (hbound ▸ Nat.lt_succ_self _) (hbound ▸ Nat.lt_succ_self _)
  -- the second program is read the same further down
  have hitem := @statement_alike move ctx₂ ctx (body₂.length + 1) rfl (Nat.le_refl _)
    (by omega) nesting
  have hsecond := statements_alike hitem body₂ {} last (Nat.lt_succ_self _) (Nat.lt_succ_self _)
    (hlength ▸ hm)
  show Alike move _ (statements (statement ctx₂ nesting) (body₂.length + 1) ⟨body₂, {}⟩)
    (statements (statement ctx nesting) ctx.bound (State.followedBy ⟨body₁, {}⟩ more))
  rw [hjoined]
  generalize statements (statement ctx₂ nesting) (body₂.length + 1) ⟨body₂, {}⟩ = x,
    statements (statement ctx nesting) m ⟨more, last⟩ = y at hsecond ⊢
  cases hsecond with
  | error h => exact .error h
  | ok h =>
    rw [h]
    exact .ok rfl

end DialogueScript.Parse
