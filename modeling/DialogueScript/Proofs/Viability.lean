import DialogueScript.Proofs.Parsing
import DialogueScript.Proofs.SteadyReaders

/-!
# Where a program goes wrong

A row of tokens that is no program is refused at the first token that no program could have there.
If every token could stand where it stands, it is refused at its end.

* `Viable` — something can follow the tokens to make them a program of the grammar;
* `Completable` — something can follow them to make them a program that is read, which has a limit
  on its levels;
* `Roomy` — reading does not need the last level below the limit, which leaves one for tokens that
  are still to come;
* `Points` — the place of a failure, for either notion of a good beginning;
* `Program.ofTokens_error_points` — **every failure to read a list of tokens points at the first
  token too many, or at the end if there is none**.
-/

namespace DialogueScript

/-! ## The end of a text is in no phrase -/

namespace Grammar

/-- The row does not contain the end of a text. -/
def Endless (ks : List Kind) : Prop := ∀ k ∈ ks, k ≠ .finish

@[simp] theorem endless_nil : Endless [] := by simp [Endless]

@[simp] theorem endless_cons (k : Kind) (ks : List Kind) :
    Endless (k :: ks) ↔ k ≠ .finish ∧ Endless ks := by
  simp [Endless]

@[simp] theorem endless_append (ks ls : List Kind) :
    Endless (ks ++ ls) ↔ Endless ks ∧ Endless ls := by
  simp [Endless, or_imp, forall_and]

theorem Chain.endless {g : Phrase Expr} {operator : Kind → Operator → Prop}
    (hg : ∀ ks e, g ks e → Endless ks) (ho : ∀ op, ¬ operator .finish op) {ks : List Kind}
    {e : Expr} (h : Chain g operator ks e) : Endless ks := by
  induction h with
  | first h => exact hg _ _ h
  | @next ls rs k op l r _ hk hr ih =>
    have hsign : k ≠ .finish := by
      rintro rfl
      exact ho op hk
    simp [ih, hsign, hg _ _ hr]

theorem Primary.endless {g : Phrase Expr} (hg : ∀ ks e, g ks e → Endless ks) {ks : List Kind}
    {e : Expr} (h : Primary g ks e) : Endless ks := by
  cases h with
  | parens h => simp [hg _ _ h]
  | _ => simp

theorem Comparison.endless {g : Phrase Expr} (hg : ∀ ks e, g ks e → Endless ks) {ks : List Kind}
    {e : Expr} (h : Comparison g ks e) : Endless ks :=
  Chain.endless (fun _ _ => Chain.endless (fun _ _ => Chain.endless (fun _ _ => Primary.endless hg)
    (by rintro op ⟨⟩)) (by rintro op ⟨⟩)) (by rintro op ⟨⟩) h

theorem Expression.endless {levels : Nat} : ∀ ks e, Expression levels ks e → Endless ks := by
  induction levels with
  | zero => exact fun ks e h => h.elim
  | succ levels ih =>
    intro ks e h
    cases h with
    | assign n h => simp [ih _ _ h]
    | comparison h => exact h.endless ih

theorem MaybeSemicolon.endless {ks : List Kind} (h : MaybeSemicolon ks) : Endless ks := by
  cases h <;> simp

theorem Many.endless {g : Phrase Stmt} (hg : ∀ ks s, g ks s → Endless ks) {ks : List Kind}
    {ss : List Stmt} (h : Many g ks ss) : Endless ks := by
  induction h with
  | nil => simp
  | cons h _ ih => simp [hg _ _ h, ih]

theorem Statement.endless {levels : Nat} : ∀ ks s, Statement levels ks s → Endless ks := by
  induction levels with
  | zero => exact fun ks s h => h.elim
  | succ levels ih =>
    intro ks s h
    cases h with
    | declare n h | speak h | express h => simp [Expression.endless _ _ h]
    | branch hc hs hsemi => simp [Expression.endless _ _ hc, ih _ _ hs, hsemi.endless]
    | loop hs hsemi => simp [ih _ _ hs, hsemi.endless]
    | block hs hsemi => simp [hs.endless ih, hsemi.endless]
    | input n | exit => simp

theorem Program.endless {levels : Nat} {ks : List Kind} {p : List Stmt}
    (h : Program levels ks p) : Endless ks := Many.endless Statement.endless h

end Grammar

/-! ## Good beginnings -/

namespace Parse

/-- Tokens of given kinds. -/
def tokensOf (ks : List Kind) : List Token := ks.map fun k => ⟨k, "", default⟩

theorem kinds_tokensOf (ks : List Kind) : kinds (tokensOf ks) = ks := by
  simp [tokensOf, kinds, Function.comp_def]

end Parse

open Parse

/-- Something can follow the tokens to make them a program of the grammar. -/
def Viable (ts : List Token) : Prop := Begins (fun ks => ∃ p, Grammar.Derives ks p) (kinds ts)

/-- Something can follow the tokens to make them a program that is read. -/
def Completable (limits : Limits) (source : Option String) (finish : Token) (ts : List Token) :
    Prop :=
  ∃ more q, Program.ofTokens limits (ts ++ more ++ [finish]) source = .ok q

/-- Reading the tokens would not need the last level below the limit. -/
def Roomy (limits : Limits) (source : Option String) (finish : Token) (ts : List Token) : Prop :=
  ∀ f, program (limits.nesting - 1) source ts finish = .error f → f.fault ≠ .parseTooDeep

/-- The failure is at the first token with which the row is no good beginning any more, or at the
end if there is no such token. -/
structure Points (good : List Token → Prop) (ts : List Token) (f : Failure) : Prop where
  atEnd : f.fault.code = "E102" ↔ good ts
  atToken : ¬ good ts → (f.fault.code = "E101" ∨ f.fault.code = "E103") ∧
    ∃ pre t post, ts = pre ++ t :: post ∧ f.span = some t.span ∧
      (∀ front, front <+: pre → good front) ∧ ¬ good (pre ++ [t])

variable {limits : Limits} {source : Option String} {finish : Token} {levels : Nat}
  {ts : List Token} {f : Failure}

/-- Without a level, every failure is about levels. -/
theorem levels_pos_of_error (h : program levels source ts finish = .error f)
    (hdeep : f.fault ≠ .parseTooDeep) : 0 < levels := by
  cases levels with
  | succ levels => exact Nat.succ_pos levels
  | zero =>
    cases ts with
    | nil => cases h
    | cons t rest =>
      cases h
      exact absurd rfl hdeep

/-- What is refused, and not for its levels, derives no program. -/
theorem not_derives_of_error (h : program levels source ts finish = .error f)
    (hdeep : f.fault ≠ .parseTooDeep) (p : Program) : ¬ Grammar.Derives (kinds ts) p := by
  rintro ⟨n, hn⟩
  let ctx : Context := ⟨finish, source, ts.length + 1⟩
  obtain ⟨q, hq, -⟩ := (statements_eq_ok_iff ctx (max levels n) ts (Nat.lt_succ_self _) p).mpr
    (hn.mono (Nat.le_max_right _ _))
  have hdeepens := @statements_deepens_le ctx _ _ (Nat.le_max_left levels n) ctx.bound ⟨ts, {}⟩
  rw [program] at h
  rcases hdeepens with heq | ⟨g, hg, hgdeep⟩
  · rw [hq, h] at heq
    cases heq
  · rw [h] at hg
    cases hg
    exact hdeep hgdeep

/-- A failure points at the first token too many, for every notion of a good beginning between
those that the grammar can complete with one level more and those that it can complete at all. -/
theorem points_of_error {good : List Token → Prop}
    (hgood : ∀ us, us <+: ts → Begins (.of (Grammar.Program (levels + 1))) (kinds us) → good us)
    (hviable : ∀ us, us <+: ts → good us → Viable us)
    (hfront : ∀ us vs, good (us ++ vs) → good us)
    (h : program levels source ts finish = .error f) (hdeep : f.fault ≠ .parseTooDeep) :
    Points good ts f := by
  let ctx : Context := ⟨finish, source, ts.length + 1⟩
  have hblamed : Blamed (.of (Grammar.Program (levels + 1))) ctx ts _ f :=
    statements_blamed (statement_steady levels) (statement_filled _) _ (Nat.lt_succ_self _) h
  cases hblamed with
  | tooDeep h => exact absurd h hdeep
  | atEnd hcode hbegins =>
    have hts : good ts := hgood ts List.prefix_rfl hbegins
    exact ⟨⟨fun _ => hts, fun _ => hcode⟩, fun hnot => absurd hts hnot⟩
  | atToken pre t post hts hspan hcode hbegins hagain =>
    subst hts
    have hpre : ∀ front, front <+: pre → good front := by
      rintro front ⟨back, rfl⟩
      exact hfront front back (hgood _ (List.prefix_append _ _) hbegins)
    have htoken : pre ++ [t] <+: pre ++ t :: post := ⟨post, by simp⟩
    have hhopeless : ¬ good (pre ++ [t]) := by
      intro hg
      obtain ⟨more, p, hp⟩ := hviable _ htoken hg
      let ctx' : Context := ⟨finish, source, (pre ++ t :: tokensOf more).length + 1⟩
      have hagain' : program levels source (pre ++ t :: tokensOf more) finish = .error f :=
        hagain ctx' _ rfl (Nat.lt_succ_self _) _ (Nat.lt_succ_self _)
      refine not_derives_of_error hagain' hdeep p ?_
      simpa [kinds_tokensOf] using hp
    have hts : ¬ good (pre ++ t :: post) := fun hg =>
      hhopeless (hfront (pre ++ [t]) post (by simpa using hg))
    refine ⟨⟨fun h => ?_, fun hg => absurd hg hts⟩, fun _ => ⟨hcode, pre, t, post, rfl, hspan, hpre,
      hhopeless⟩⟩
    rcases hcode with hcode | hcode <;> simp [h] at hcode

/-- In particular for tokens that the grammar can complete. -/
theorem viable_points_of_error (h : program levels source ts finish = .error f)
    (hdeep : f.fault ≠ .parseTooDeep) : Points Viable ts f := by
  refine points_of_error ?_ (fun us _ h => h) ?_ h hdeep
  · rintro us _ ⟨more, p, hp⟩
    exact ⟨more, p, _, hp⟩
  · rintro us vs ⟨more, hmore⟩
    exact ⟨kinds vs ++ more, by rwa [kinds_append, List.append_assoc] at hmore⟩

namespace Program

theorem body_append {us : List Token} (hus : ∀ t ∈ us, t.kind ≠ .finish) (vs : List Token) :
    body (us ++ vs) = us ++ body vs :=
  List.takeWhile_append_of_pos fun t ht => by simpa using hus t ht

theorem body_finish (hfinish : finish.kind = .finish) (rest : List Token) :
    body (finish :: rest) = [] := by
  simp [body, hfinish]

/-- A list of tokens whose only end is the last is read up to there. -/
theorem ofTokens_append_finish (limits : Limits) (source : Option String)
    (hts : ∀ t ∈ ts, t.kind ≠ .finish) (hfinish : finish.kind = .finish) :
    ofTokens limits (ts ++ [finish]) source =
      (Parse.program limits.nesting source ts finish).mapError .failure := by
  have hfind : (ts ++ [finish]).find? (·.kind == .finish) = some finish := by
    rw [List.find?_append, List.find?_eq_none.mpr (by simpa using hts)]
    simp [hfinish]
  have hbody : body (ts ++ [finish]) = ts := by
    rw [body_append hts, body_finish hfinish, List.append_nil]
  unfold ofTokens
  rw [List.getLast?_concat, hfind]
  simp only [hfinish, if_true]
  rw [← body, hbody]

/-- What can be completed inside the limit can be read to its end. -/
theorem completable_of_begins (hfinish : finish.kind = .finish) {us : List Token}
    (h : Begins (.of (Grammar.Program limits.nesting)) (kinds us)) :
    Completable limits source finish us := by
  obtain ⟨more, p, hp⟩ := h
  have hendless : ∀ t ∈ us ++ tokensOf more, t.kind ≠ .finish := by
    intro t ht
    refine Grammar.Program.endless hp t.kind ?_
    rw [← kinds_tokensOf more, ← kinds_append]
    exact List.mem_map_of_mem ht
  obtain ⟨q, hq, -⟩ := (program_eq_ok_iff limits.nesting source (us ++ tokensOf more) finish p).mpr
    (by rwa [kinds_append, kinds_tokensOf])
  refine ⟨tokensOf more, q, ?_⟩
  rw [ofTokens_append_finish limits source hendless hfinish, hq]
  rfl

theorem viable_of_completable (hfinish : finish.kind = .finish) {us : List Token}
    (hus : ∀ t ∈ us, t.kind ≠ .finish) (h : Completable limits source finish us) : Viable us := by
  obtain ⟨more, q, hq⟩ := h
  have hend : ∃ t ∈ (us ++ more ++ [finish]).getLast?, t.kind = .finish :=
    ⟨finish, by simp, hfinish⟩
  have hderives := ((ofTokens_iff_derives limits source hend).1 q.erase).mp ⟨q, hq, rfl⟩
  rw [List.append_assoc, body_append hus, kinds_append] at hderives
  exact ⟨_, _, _, hderives⟩

/-- **What is wrong with a list of tokens.**  A list whose only end is the last token and that is no
program is refused with a failure of parsing.  Unless it has too many levels, the failure is an
early end if and only if the tokens before the end can be continued to a program; otherwise it
stands at the first token with which they cannot.  The grammar has no limit on levels.  If the
reader had one level to spare, the same holds of continuations that it reads itself. -/
theorem ofTokens_error_points {refusal : Refusal} (hts : ∀ t ∈ ts, t.kind ≠ .finish)
    (hfinish : finish.kind = .finish)
    (h : ofTokens limits (ts ++ [finish]) source = .error refusal) :
    ∃ f, refusal = .failure f ∧ (f.fault ≠ .parseTooDeep → Points Viable ts f) ∧
      (Roomy limits source finish ts → Points (Completable limits source finish) ts f) := by
  rw [ofTokens_append_finish limits source hts hfinish] at h
  obtain ⟨f, hf, rfl⟩ : ∃ f, Parse.program limits.nesting source ts finish = .error f ∧
      refusal = .failure f := by
    cases hp : Parse.program limits.nesting source ts finish with
    | error f =>
      rw [hp] at h
      cases h
      exact ⟨f, rfl, rfl⟩
    | ok q =>
      rw [hp] at h
      cases h
  refine ⟨f, rfl, fun hdeep => ?_, fun hroomy => ?_⟩
  · exact viable_points_of_error hf hdeep
  · have hdeepens := @statements_deepens_le ⟨finish, source, ts.length + 1⟩ _ _
      (Nat.sub_le limits.nesting 1) (ts.length + 1) ⟨ts, {}⟩
    have hless : Parse.program (limits.nesting - 1) source ts finish = .error f := by
      rcases hdeepens with heq | ⟨g, hg, hdeep⟩
      · exact heq.symm.trans hf
      · exact absurd hdeep (hroomy g hg)
    have hfree : ∀ us, us <+: ts → ∀ t ∈ us, t.kind ≠ .finish :=
      fun us hus t ht => hts t (hus.subset ht)
    have hlevels : limits.nesting - 1 + 1 = limits.nesting := by
      have hpos := levels_pos_of_error hless (hroomy f hless)
      omega
    refine points_of_error (fun us _ hus => ?_)
      (fun us hus => viable_of_completable hfinish (hfree us hus)) ?_ hless (hroomy f hless)
    · rw [hlevels] at hus
      exact completable_of_begins hfinish hus
    · rintro us vs ⟨more, q, hq⟩
      exact ⟨vs ++ more, q, by simpa using hq⟩

/-- The tokens of `loop { speak }`. -/
def hollowTokens : List Token :=
  [⟨.keyword .loop, "loop", ⟨none, ⟨1, 1, 0⟩, ⟨1, 5, 4⟩⟩⟩,
    ⟨.sign .openBrace, "\x7b", ⟨none, ⟨1, 6, 5⟩, ⟨1, 7, 6⟩⟩⟩,
    ⟨.keyword .speak, "speak", ⟨none, ⟨1, 8, 7⟩, ⟨1, 13, 12⟩⟩⟩,
    ⟨.sign .closeBrace, "\x7d", ⟨none, ⟨1, 14, 13⟩, ⟨1, 15, 14⟩⟩⟩]

def hollowEnd : Token := ⟨.finish, "", ⟨none, ⟨1, 15, 14⟩, ⟨1, 15, 14⟩⟩⟩

def hollowFailure : Failure :=
  ⟨.unexpectedToken "expression" "RBRACE", some ⟨none, ⟨1, 14, 13⟩, ⟨1, 15, 14⟩⟩, none⟩

def halfFailure : Failure := ⟨.unexpectedEnd "'\x7d'", some hollowEnd.span, none⟩

/-- The closing brace is one token too many, and its own span is reported.  Without the last two
tokens it is the end that comes too early. -/
theorem hollowTokens_points :
    (Points Viable hollowTokens hollowFailure ∧
      Points (Completable .small none hollowEnd) hollowTokens hollowFailure) ∧
    Points Viable (hollowTokens.take 2) halfFailure ∧
      Points (Completable .small none hollowEnd) (hollowTokens.take 2) halfFailure := by
  have hread : ofTokens .small (hollowTokens ++ [hollowEnd]) none =
      .error (.failure hollowFailure) := rfl
  have hroomy : Roomy .small none hollowEnd hollowTokens := by
    intro f hf
    cases hf
    decide
  have hhalf : ofTokens .small (hollowTokens.take 2 ++ [hollowEnd]) none =
      .error (.failure halfFailure) := rfl
  have hhalfRoomy : Roomy .small none hollowEnd (hollowTokens.take 2) := by
    intro f hf
    cases hf
    decide
  obtain ⟨f, hf, hviable, hcompletable⟩ := ofTokens_error_points (by decide) rfl hread
  obtain ⟨g, hg, hviable', hcompletable'⟩ := ofTokens_error_points (by decide) rfl hhalf
  cases hf
  cases hg
  exact ⟨⟨hviable (by decide), hcompletable hroomy⟩, hviable' (by decide),
    hcompletable' hhalfRoomy⟩

end Program

end DialogueScript
