import DialogueScript.Proofs.Grammar
import DialogueScript.Proofs.Readers

/-!
# What is read is derived

A reader that succeeds has taken a row of tokens from the front of its state, and the kinds of these
tokens derive the tree it returns, spans left out.

* `Sound` — this, for one reader and one phrase of the grammar;
* `primary_sound`, `chain_sound`, `blockRest_sound` — soundness of a reader from that of the readers
  inside it;
* `expression_sound`, `statement_sound`, `statements_sound` — by induction on the levels of nesting.

The bounds of the repetitions are never used up: `Sound` asks for fewer tokens than the bound.
-/

namespace DialogueScript.Parse

open Grammar

def kinds (ts : List Token) : List Kind := ts.map (·.kind)

@[simp] theorem kinds_nil : kinds [] = [] := rfl

@[simp] theorem kinds_cons (t : Token) (ts : List Token) : kinds (t :: ts) = t.kind :: kinds ts :=
  rfl

@[simp] theorem kinds_append (ts us : List Token) : kinds (ts ++ us) = kinds ts ++ kinds us := by
  simp [kinds]

theorem length_lt_of_append {ts used rest : List Token} {n : Nat} (h : ts = used ++ rest)
    (hts : ts.length < n) : rest.length < n := by
  rw [h, List.length_append] at hts
  omega

/-- A successful reader takes tokens that derive what it returns. -/
def Sound {α : Type} (bound : Nat) (erase : α → α) (r : Reader α) (g : Phrase α) : Prop :=
  ∀ st x st', st.rest.length < bound → r st = .ok (x, st') →
    ∃ used, st.rest = used ++ st'.rest ∧ g (kinds used) (erase x)

theorem multiplication_isFactor {k : Kind} {op : Operator} (h : multiplication k = some op) :
    IsFactor k op := by
  unfold multiplication at h
  split at h <;> cases h
  · exact .times
  · exact .dividedBy

theorem addition_isAddend {k : Kind} {op : Operator} (h : addition k = some op) :
    IsAddend k op := by
  unfold addition at h
  split at h <;> cases h
  · exact .plus
  · exact .minus

theorem equality_isEquality {k : Kind} {op : Operator} (h : equality k = some op) :
    IsEquality k op := by
  unfold equality at h
  split at h <;> cases h
  exact .equals

variable {ctx : Context} {bound : Nat}

/-! ## Expressions -/

theorem primary_sound {inner : Reader Expr} {g : Phrase Expr}
    (hinner : Sound bound Expr.erase inner g) :
    Sound bound Expr.erase (primary ctx inner) (Primary g) := by
  intro st e st' hb h
  obtain ⟨t, rest, hst, hstep⟩ := primary_eq_ok h
  cases hstep with
  | number hk => exact ⟨[t], hst, by rw [kinds_cons, hk]; exact .number _⟩
  | text hk => exact ⟨[t], hst, by rw [kinds_cons, hk]; exact .text _⟩
  | name hk => exact ⟨[t], hst, by rw [kinds_cons, hk]; exact .name _⟩
  | parens hk he hc =>
    obtain ⟨used, hused, hg⟩ := hinner _ _ _ (by simp [hst] at hb ⊢; omega) he
    obtain ⟨u, rest', hst₁, hu, rfl⟩ := sign_eq_ok hc
    refine ⟨t :: used ++ [u], ?_, ?_⟩
    · rw [hst, show rest = used ++ _ from hused, hst₁]
      simp
    · simp only [List.cons_append, kinds_cons, kinds_append, kinds_nil, hk, hu]
      exact .parens hg

theorem chainRest_sound {operand : Reader Expr} {operator : Kind → Option Operator}
    {g : Phrase Expr} {rel : Kind → Operator → Prop} (hoperand : Sound bound Expr.erase operand g)
    (hop : ∀ k op, operator k = some op → rel k op) (first : Token) :
    ∀ n left st e st', st.rest.length < bound →
      chainRest operand operator first n left st = .ok (e, st') →
      ∀ ks, Chain g rel ks left.erase →
        ∃ used, st.rest = used ++ st'.rest ∧ Chain g rel (ks ++ kinds used) e.erase := by
  intro n
  induction n with
  | zero =>
    intro left st e st' _ h ks hks
    cases h
    exact ⟨[], by simp, by simpa using hks⟩
  | succ n ih =>
    intro left st e st' hb h ks hks
    rcases chainRest_eq_ok h with ⟨rfl, rfl⟩ | ⟨m, t, rest, op, right, st₁, hm, hst, hk, hr, h⟩
    · exact ⟨[], by simp, by simpa using hks⟩
    · cases hm
      have hrest : rest.length < bound := by
        simp only [hst, List.length_cons] at hb
        omega
      obtain ⟨used, hused, hg⟩ := hoperand _ _ _ hrest hr
      have hlen : st₁.rest.length < bound := length_lt_of_append hused hrest
      obtain ⟨more, hmore, hchain⟩ := ih _ _ _ _ hlen h (ks ++ t.kind :: kinds used)
        (.next hks (hop _ _ hk) hg)
      refine ⟨t :: used ++ more, ?_, ?_⟩
      · rw [hst, show rest = used ++ _ from hused, hmore]
        simp
      · simpa using hchain

theorem chain_sound {operand : Reader Expr} {operator : Kind → Option Operator}
    {g : Phrase Expr} {rel : Kind → Operator → Prop} (hoperand : Sound bound Expr.erase operand g)
    (hop : ∀ k op, operator k = some op → rel k op) :
    Sound bound Expr.erase (chain ctx operand operator) (Chain g rel) := by
  intro st e st' hb h
  obtain ⟨left, st₁, hleft, h⟩ := chain_eq_ok h
  obtain ⟨used, hused, hg⟩ := hoperand _ _ _ hb hleft
  have hlen : st₁.rest.length < bound := length_lt_of_append hused hb
  obtain ⟨more, hmore, hchain⟩ :=
    chainRest_sound hoperand hop _ _ _ _ _ _ hlen h (kinds used) (.first hg)
  exact ⟨used ++ more, by rw [hused, hmore, List.append_assoc], by rwa [kinds_append]⟩

theorem comparison_sound {inner : Reader Expr} {g : Phrase Expr}
    (hinner : Sound bound Expr.erase inner g) :
    Sound bound Expr.erase (comparison ctx inner) (Comparison g) :=
  chain_sound
    (chain_sound
      (chain_sound (primary_sound hinner) fun _ _ => multiplication_isFactor)
      fun _ _ => addition_isAddend)
    fun _ _ => equality_isEquality

theorem expression_sound (levels : Nat) :
    Sound bound Expr.erase (expression ctx levels) (Expression levels) := by
  induction levels with
  | zero =>
    intro st e st' _ h
    cases h
  | succ levels ih =>
    intro st e st' hb h
    rcases expression_eq_ok h with ⟨t, a, rest, n, v, hst, ht, ha, hv, rfl⟩ | h
    · have hrest : rest.length < bound := by
        simp only [hst, List.length_cons] at hb
        omega
      obtain ⟨used, hused, hg⟩ := ih _ _ _ hrest hv
      refine ⟨t :: a :: used, by rw [hst, show rest = used ++ _ from hused]; rfl, ?_⟩
      simp only [kinds_cons, ht, ha]
      exact .assign n hg
    · obtain ⟨used, hused, hg⟩ := comparison_sound ih _ _ _ hb h
      exact ⟨used, hused, .comparison hg⟩

/-! ## Statements -/

theorem blockRest_sound {item : Reader Stmt} {g : Phrase Stmt}
    (hitem : Sound bound Stmt.erase item g) (hne : ∀ ks s, g ks s → ks ≠ []) :
    ∀ n st ss st', st.rest.length < n → st.rest.length < bound →
      blockRest ctx item n st = .ok (ss, st') →
      ∃ used t, st.rest = used ++ t :: st'.rest ∧ t.kind = .sign .closeBrace ∧
        Many g (kinds used) (Stmt.eraseAll ss) := by
  intro n
  induction n with
  | zero => intro st ss st' hn; omega
  | succ n ih =>
    intro st ss st' hn hb h
    rcases blockRest_eq_ok h with ⟨t, rest, hst, hk, rfl, rfl⟩ | ⟨s, st₁, ss', hs, hss, rfl⟩
    · exact ⟨[], t, hst, hk, .nil⟩
    · obtain ⟨used, hused, hg⟩ := hitem _ _ _ hb hs
      -- a statement takes a token, so one round less is enough for the rest
      have hpos : 0 < used.length := List.length_pos_iff.mpr fun he => hne _ _ hg (by simp [he])
      have hlen := congrArg List.length hused
      simp only [List.length_append] at hlen
      obtain ⟨more, t, hmore, hk, hgs⟩ := ih _ _ _ (by omega) (by omega) hss
      refine ⟨used ++ more, t, by rw [hused, hmore, List.append_assoc], hk, ?_⟩
      rw [kinds_append]
      exact .cons hg hgs

/-- What is left out after a block, a branch or a loop. -/
theorem skipSemicolon_sound (st : State) :
    ∃ semi, st.rest = semi ++ (skipSemicolon st).rest ∧ MaybeSemicolon (kinds semi) := by
  rcases skipSemicolon_cases st with ⟨heq, -⟩ | ⟨t, rest, hst, hk, heq⟩
  · exact ⟨[], by rw [heq]; rfl, .absent⟩
  · exact ⟨[t], by rw [heq]; exact hst, by rw [kinds_cons, hk]; exact .present⟩

theorem statement_sound (levels : Nat) :
    Sound ctx.bound Stmt.erase (statement ctx levels) (Statement levels) := by
  induction levels with
  | zero =>
    intro st s st' _ h
    cases h
  | succ levels ih =>
    intro st s st' hb h
    obtain ⟨t, rest, hst, hstep⟩ := statement_eq_ok h
    have hrest : rest.length < ctx.bound := by
      simp only [hst, List.length_cons] at hb
      omega
    have hexpr := @expression_sound ctx ctx.bound levels
    cases hstep with
    | declare hk hn ha he hs =>
      obtain ⟨t₁, rest₁, h₁, hk₁, rfl⟩ := variableName_eq_ok hn
      obtain ⟨t₂, rest₂, h₂, hk₂, rfl⟩ := sign_eq_ok ha
      simp only [after_rest] at h₁ h₂
      obtain ⟨used, hused, hg⟩ := hexpr _ _ _ (by simp [h₁, h₂] at hrest ⊢; omega) he
      obtain ⟨t₃, rest₃, h₃, hk₃, rfl⟩ := sign_eq_ok hs
      refine ⟨t :: t₁ :: t₂ :: used ++ [t₃], ?_, ?_⟩
      · rw [after_rest] at hused
        simp [hst, h₁, h₂, hused, h₃]
      · simp only [List.cons_append, kinds_cons, kinds_append, kinds_nil, hk, hk₁, hk₂, hk₃]
        exact .declare _ hg
    | speak hk he hs =>
      obtain ⟨used, hused, hg⟩ := hexpr _ _ _ hrest he
      obtain ⟨t₁, rest₁, h₁, hk₁, rfl⟩ := sign_eq_ok hs
      rw [after_rest] at hused
      refine ⟨t :: used ++ [t₁], by simp [hst, hused, h₁], ?_⟩
      simp only [List.cons_append, kinds_cons, kinds_append, kinds_nil, hk, hk₁]
      exact .speak hg
    | input hk hn hs =>
      obtain ⟨t₁, rest₁, h₁, hk₁, rfl⟩ := variableName_eq_ok hn
      obtain ⟨t₂, rest₂, h₂, hk₂, rfl⟩ := sign_eq_ok hs
      simp only [after_rest] at h₁ h₂
      refine ⟨[t, t₁, t₂], by simp [hst, h₁, h₂], ?_⟩
      simp only [kinds_cons, kinds_nil, hk, hk₁, hk₂]
      exact .input _
    | branch hk ho he hc hbody =>
      rename_i c body st₁ st₂ st₃ st₄
      obtain ⟨t₁, rest₁, h₁, hk₁, rfl⟩ := sign_eq_ok ho
      rw [after_rest] at h₁
      obtain ⟨cond, hcond, hgc⟩ := hexpr _ _ _ (by simp [h₁] at hrest ⊢; omega) he
      obtain ⟨t₂, rest₂, h₂, hk₂, rfl⟩ := sign_eq_ok hc
      rw [after_rest] at hcond
      obtain ⟨used, hused, hg⟩ := ih _ _ _ (by simp [h₁, hcond, h₂] at hrest ⊢; omega) hbody
      rw [after_rest] at hused
      obtain ⟨semi, hsemi, hms⟩ := skipSemicolon_sound st₄
      refine ⟨t :: t₁ :: cond ++ t₂ :: used ++ semi, ?_, ?_⟩
      · simp [hst, h₁, hcond, h₂, hused, ← hsemi]
      · simp only [List.cons_append, kinds_cons, kinds_append, hk, hk₁, hk₂]
        exact .branch hgc hg hms
    | loop hk hbody =>
      rename_i body st₁
      obtain ⟨used, hused, hg⟩ := ih _ _ _ hrest hbody
      rw [after_rest] at hused
      obtain ⟨semi, hsemi, hms⟩ := skipSemicolon_sound st₁
      refine ⟨t :: used ++ semi, by simp [hst, hused, ← hsemi], ?_⟩
      simp only [List.cons_append, kinds_cons, kinds_append, hk]
      exact .loop hg hms
    | exit hk hs =>
      obtain ⟨t₁, rest₁, h₁, hk₁, rfl⟩ := sign_eq_ok hs
      rw [after_rest] at h₁
      refine ⟨[t, t₁], by simp [hst, h₁], ?_⟩
      simp only [kinds_cons, kinds_nil, hk, hk₁]
      exact .exit
    | block hk hbody =>
      rename_i body st₁
      obtain ⟨used, t₁, hused, hk₁, hg⟩ := blockRest_sound ih
        (fun ks s hs he => by obtain ⟨k, more, hks, -⟩ := hs.head; simp [he] at hks)
        _ _ _ _ hrest hrest hbody
      rw [after_rest] at hused
      obtain ⟨semi, hsemi, hms⟩ := skipSemicolon_sound st₁
      refine ⟨t :: used ++ t₁ :: semi, by simp [hst, hused, ← hsemi], ?_⟩
      simp only [List.cons_append, kinds_cons, kinds_append, hk, hk₁]
      exact .block hg hms
    | express _ _ he hs =>
      obtain ⟨used, hused, hg⟩ := hexpr _ _ _ hb he
      obtain ⟨t₁, rest₁, h₁, hk₁, rfl⟩ := sign_eq_ok hs
      refine ⟨used ++ [t₁], by simp [hused, h₁], ?_⟩
      simp only [kinds_cons, kinds_append, kinds_nil, hk₁]
      exact .express hg

theorem statements_sound {item : Reader Stmt} {g : Phrase Stmt}
    (hitem : Sound bound Stmt.erase item g) (hne : ∀ ks s, g ks s → ks ≠ []) :
    ∀ n st ss, st.rest.length < n → st.rest.length < bound → statements item n st = .ok ss →
      Many g (kinds st.rest) (Stmt.eraseAll ss) := by
  intro n
  induction n with
  | zero => intro st ss hn; omega
  | succ n ih =>
    intro st ss hn hb h
    rcases statements_eq_ok h with ⟨hst, rfl⟩ | ⟨s, st₁, ss', hs, hss, rfl⟩
    · rw [hst]
      exact .nil
    · obtain ⟨used, hused, hg⟩ := hitem _ _ _ hb hs
      have hpos : 0 < used.length := List.length_pos_iff.mpr fun he => hne _ _ hg (by simp [he])
      have hlen := congrArg List.length hused
      simp only [List.length_append] at hlen
      rw [hused, kinds_append]
      exact .cons hg (ih _ _ (by omega) (by omega) hss)

end DialogueScript.Parse
