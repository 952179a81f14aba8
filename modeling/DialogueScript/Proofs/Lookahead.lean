import DialogueScript.Proofs.ParseComplete

/-!
# Reading with one token of lookahead

What a reader does is settled by the tokens that it takes and the one behind them.  A reader that
succeeds does the same before any other tokens of which the first is the same.  A reader that is
refused at a token is refused there whatever stands behind it; and the tokens before could still
have begun a phrase, as they could when the tokens end too early.

* `Rows`, `Rows.next`, `Begins` — rows of kinds, one row after another, and how a row can begin;
* `Blamed` — why tokens are refused: too many levels, an end too early, or one of the tokens;
* `Settled`, `Steady` — a reader in one state, and in all states with few enough tokens;
* `Settled.bind`, `Steady.bind` — readers one after the other;
* `Settled.taken`, `Settled.refused`, `Settled.behind`, `Settled.peek` — the next token is all that
  is read, or is not wanted, or comes before the rest, or decides how to read;
* `Steady.sign`, `Steady.skipSemicolon` — the signs between the parts of a phrase.
-/

namespace DialogueScript.Parse

open Grammar

/-! ## Rows of kinds -/

/-- Rows of kinds of some form. -/
abbrev Rows := List Kind → Prop

namespace Rows

/-- The rows that a phrase of the grammar allows. -/
def of {α : Type} (g : Phrase α) : Rows := fun ks => ∃ a, g ks a

/-- Rows of one kind. -/
def one (k : Kind) : Rows := fun ks => ks = [k]

/-- Only the empty row. -/
def empty : Rows := fun ks => ks = []

/-- A row of the one form, then a row of the other. -/
def next (G H : Rows) : Rows := fun ks => ∃ us vs, ks = us ++ vs ∧ G us ∧ H vs

/-- There is such a row. -/
def Some (G : Rows) : Prop := ∃ ks, G ks

theorem Some.one (k : Kind) : (one k).Some := ⟨_, rfl⟩

theorem Some.empty : empty.Some := ⟨_, rfl⟩

theorem Some.next {G H : Rows} (hG : G.Some) (hH : H.Some) : (G.next H).Some := by
  obtain ⟨us, hus⟩ := hG
  obtain ⟨vs, hvs⟩ := hH
  exact ⟨_, us, vs, rfl, hus, hvs⟩

end Rows

/-- Something can follow the row to make it one of the form. -/
def Begins (G : Rows) (ks : List Kind) : Prop := ∃ more, G (ks ++ more)

theorem Begins.nil {G : Rows} {ks : List Kind} (h : G ks) : Begins G [] := ⟨ks, h⟩

theorem Begins.mono {G H : Rows} (hGH : ∀ ks, G ks → H ks) {ks : List Kind} (h : Begins G ks) :
    Begins H ks := h.imp fun _ => hGH _

theorem Begins.next {G H : Rows} (hH : H.Some) {ks : List Kind} (h : Begins G ks) :
    Begins (G.next H) ks := by
  obtain ⟨more, hmore⟩ := h
  obtain ⟨ls, hls⟩ := hH
  exact ⟨more ++ ls, ks ++ more, ls, by simp, hmore, hls⟩

theorem Begins.append {G H : Rows} {us vs : List Kind} (hus : G us) (h : Begins H vs) :
    Begins (G.next H) (us ++ vs) := by
  obtain ⟨more, hmore⟩ := h
  exact ⟨more, us, vs ++ more, by simp, hus, hmore⟩

/-! ## What is settled -/

variable {α β : Type}

/-- Why tokens are refused with a failure.  `again` says that other tokens are refused with it,
too. -/
inductive Blamed (G : Rows) (ctx : Context) (ts : List Token)
    (again : Context → List Token → Prop) (f : Failure) : Prop
  | tooDeep (h : f.fault = .parseTooDeep)
  | atEnd (h : f.fault.code = "E102") (hbegins : Begins G (kinds ts))
  | atToken (pre : List Token) (t : Token) (post : List Token) (hts : ts = pre ++ t :: post)
      (hspan : f.span = some t.span) (hcode : f.fault.code = "E101" ∨ f.fault.code = "E103")
      (hbegins : Begins G (kinds pre))
      (hagain : ∀ ctx' post', ctx'.source = ctx.source →
        (pre ++ t :: post').length < ctx'.bound → again ctx' (pre ++ t :: post'))

/-- The reader takes a row of the form and does so wherever the same token follows, or it is refused
for a reason. -/
structure Settled (G : Rows) (r : Context → Reader α) (ctx : Context) (st : State) : Prop where
  ok : ∀ a st', r ctx st = .ok (a, st') → ∃ used, st.rest = used ++ st'.rest ∧ G (kinds used) ∧
    ∀ ctx' rest, ctx'.source = ctx.source → (used ++ rest).length < ctx'.bound →
      rest.head? = st'.rest.head? → r ctx' ⟨used ++ rest, st.last⟩ = .ok (a, ⟨rest, st'.last⟩)
  error : ∀ f, r ctx st = .error f →
    Blamed G ctx st.rest (fun ctx' ts => r ctx' ⟨ts, st.last⟩ = .error f) f

/-- The reader is settled in all states with fewer tokens than the bound. -/
def Steady (G : Rows) (r : Context → Reader α) : Prop :=
  ∀ ctx st, st.rest.length < ctx.bound → Settled G r ctx st

variable {G H : Rows} {ctx : Context} {st : State} {ts : List Token} {f : Failure}
  {again again' : Context → List Token → Prop}

/-- What is blamed behind some tokens is blamed with them. -/
theorem Blamed.behind (used : List Token) (h : Blamed G ctx ts again f)
    (hbegins : ∀ us, Begins G (kinds us) → Begins H (kinds (used ++ us)))
    (hagain : ∀ ctx' us, ctx'.source = ctx.source → (used ++ us).length < ctx'.bound →
      us.head? = ts.head? → again ctx' us → again' ctx' (used ++ us)) :
    Blamed H ctx (used ++ ts) again' f := by
  cases h with
  | tooDeep h => exact .tooDeep h
  | atEnd h hmore => exact .atEnd h (hbegins ts hmore)
  | atToken pre t post hts hspan hcode hmore hall =>
    subst hts
    refine .atToken (used ++ pre) t post (by simp) hspan hcode (hbegins pre hmore) ?_
    intro ctx' post' hsource hlength
    rw [List.append_assoc] at hlength ⊢
    have hhead : (pre ++ t :: post').head? = (pre ++ t :: post).head? := by cases pre <;> rfl
    have hlength' : (pre ++ t :: post').length < ctx'.bound := by
      rw [List.length_append] at hlength
      omega
    exact hagain ctx' _ hsource hlength hhead (hall ctx' post' hsource hlength')

theorem Blamed.imp (h : Blamed G ctx ts again f) (hbegins : ∀ ks, Begins G ks → Begins H ks)
    (hagain : ∀ ctx' us, ctx'.source = ctx.source → us.length < ctx'.bound → us.head? = ts.head? →
      again ctx' us → again' ctx' us) : Blamed H ctx ts again' f :=
  h.behind [] (fun us => hbegins (kinds us)) hagain

theorem Settled.mono {r : Context → Reader α} (h : Settled G r ctx st)
    (hGH : ∀ ks, G ks → H ks) : Settled H r ctx st where
  ok a st' ha := by
    obtain ⟨used, hused, hG, hall⟩ := h.ok a st' ha
    exact ⟨used, hused, hGH _ hG, hall⟩
  error f hf := (h.error f hf).imp (fun _ => .mono hGH) fun _ _ _ _ _ h => h

theorem head?_append_congr (used : List Token) {rest rest' : List Token}
    (h : rest'.head? = rest.head?) : (used ++ rest').head? = (used ++ rest).head? := by
  cases used with
  | nil => exact h
  | cons t used => rfl

/-- One reader after another. -/
theorem Settled.bind {r : Context → Reader α} {k : α → Context → Reader β}
    (hr : Settled G r ctx st) (hH : H.Some)
    (hk : ∀ a st', r ctx st = .ok (a, st') → Settled H (k a) ctx st') :
    Settled (G.next H) (fun ctx st => r ctx st >>= fun p => k p.1 ctx p.2) ctx st where
  ok b st₂ hb := by
    obtain ⟨⟨a, st₁⟩, ha, hb⟩ := bind_eq_ok.mp hb
    obtain ⟨used, hused, hG, hall⟩ := hr.ok a st₁ ha
    obtain ⟨more, hmore, hH, hall'⟩ := (hk a st₁ ha).ok b st₂ hb
    refine ⟨used ++ more, by rw [hused, hmore, List.append_assoc], ?_, ?_⟩
    · rw [kinds_append]
      exact ⟨_, _, rfl, hG, hH⟩
    · intro ctx' rest hsource hlength hhead
      rw [List.append_assoc] at hlength ⊢
      have hfirst := hall ctx' (more ++ rest) hsource hlength
        (by rw [hmore]; exact head?_append_congr more hhead)
      have hlength' : (more ++ rest).length < ctx'.bound := by
        rw [List.length_append] at hlength
        omega
      simp only [hfirst]
      exact hall' ctx' rest hsource hlength' hhead
  error f hf := by
    cases ha : r ctx st with
    | error g =>
      rw [ha] at hf
      cases hf
      refine (hr.error f ha).imp (fun _ => .next hH) fun ctx' us _ _ _ hus => ?_
      simp only [hus]
      rfl
    | ok p =>
      obtain ⟨a, st₁⟩ := p
      rw [ha] at hf
      obtain ⟨used, hused, hG, hall⟩ := hr.ok a st₁ ha
      rw [hused]
      refine ((hk a st₁ ha).error f hf).behind used (fun us hus => ?_) ?_
      · rw [kinds_append]
        exact .append hG hus
      · intro ctx' us hsource hlength hhead hus
        simp only [hall ctx' us hsource hlength hhead]
        exact hus

theorem Steady.bind {r : Context → Reader α} {k : α → Context → Reader β} (hr : Steady G r)
    (hH : H.Some) (hk : ∀ a, Steady H (k a)) :
    Steady (G.next H) fun ctx st => r ctx st >>= fun p => k p.1 ctx p.2 := by
  intro ctx st hb
  refine (hr ctx st hb).bind hH fun a st' ha => hk a ctx st' ?_
  obtain ⟨used, hused, -⟩ := (hr ctx st hb).ok a st' ha
  exact length_lt_of_append hused hb

/-! ## Single tokens -/

section

variable {r : Context → Reader α} {t : Token} {rest : List Token} {last : Location}

theorem lineOf_congr {ctx' : Context} (h : ctx'.source = ctx.source) (t : Token) :
    ctx'.lineOf t = ctx.lineOf t := by
  rw [Context.lineOf, Context.lineOf, h]

/-- The tokens end where one is wanted. -/
theorem Settled.atEnd (what : String)
    (hr : r ctx ⟨[], last⟩ = .error (ctx.expected what ⟨[], last⟩))
    (hG : G.Some) : Settled G r ctx ⟨[], last⟩ where
  ok a st' ha := by
    rw [hr] at ha
    cases ha
  error f hf := by
    rw [hr] at hf
    cases hf
    obtain ⟨ks, hks⟩ := hG
    exact .atEnd rfl (.nil hks)

/-- The next token is refused. -/
theorem Settled.refused (fault : Fault) (hcode : fault.code = "E101" ∨ fault.code = "E103")
    (hr : ∀ ctx' rest', r ctx' ⟨t :: rest', last⟩ = .error ⟨fault, some t.span, ctx'.lineOf t⟩)
    (hG : G.Some) : Settled G r ctx ⟨t :: rest, last⟩ where
  ok a st' ha := by
    rw [hr] at ha
    cases ha
  error f hf := by
    rw [hr] at hf
    cases hf
    obtain ⟨ks, hks⟩ := hG
    refine .atToken [] t rest rfl rfl hcode (.nil hks) fun ctx' post' hsource _ => ?_
    rw [List.nil_append, hr, lineOf_congr hsource]

/-- The next token is all that is read. -/
theorem Settled.taken {a : α}
    (hr : ∀ ctx' rest', r ctx' ⟨t :: rest', last⟩ = .ok (a, .after t rest')) (hG : G [t.kind]) :
    Settled G r ctx ⟨t :: rest, last⟩ where
  ok b st' hb := by
    rw [hr] at hb
    cases hb
    exact ⟨[t], rfl, hG, fun ctx' rest' _ _ _ => hr ctx' rest'⟩
  error f hf := by
    rw [hr] at hf
    cases hf

/-- Some tokens are read, and then more. -/
theorem Settled.behind {k : Context → Reader α} (used : List Token) (middle : Location)
    (hb : (used ++ rest).length < ctx.bound)
    (hr : ∀ ctx' rest', (used ++ rest').length < ctx'.bound →
      r ctx' ⟨used ++ rest', last⟩ = k ctx' ⟨rest', middle⟩)
    (hrows : ∀ ks, H ks → G (kinds used ++ ks)) (hk : Settled H k ctx ⟨rest, middle⟩) :
    Settled G r ctx ⟨used ++ rest, last⟩ where
  ok a st' ha := by
    rw [hr ctx rest hb] at ha
    obtain ⟨more, hmore, hH, hall⟩ := hk.ok a st' ha
    refine ⟨used ++ more, ?_, by rw [kinds_append]; exact hrows _ hH, ?_⟩
    · rw [List.append_assoc]
      exact congrArg (used ++ ·) hmore
    · intro ctx' rest' hsource hlength hhead
      rw [List.append_assoc] at hlength ⊢
      rw [hr ctx' _ hlength]
      rw [List.length_append] at hlength
      exact hall ctx' rest' hsource (by omega) hhead
  error f hf := by
    rw [hr ctx rest hb] at hf
    refine (hk.error f hf).behind used ?_ ?_
    · rintro us ⟨more, hmore⟩
      refine ⟨more, ?_⟩
      rw [kinds_append, List.append_assoc]
      exact hrows _ hmore
    · intro ctx' us _ hlength _ hus
      rw [hr ctx' us hlength]
      exact hus

/-- A look at the next token decides how it is read. -/
theorem Settled.peek {k : Context → Reader α} (hb : (t :: rest).length < ctx.bound)
    (hne : ∀ ks, G ks → ks ≠ [])
    (hr : ∀ ctx' rest', (t :: rest').length < ctx'.bound →
      r ctx' ⟨t :: rest', last⟩ = k ctx' ⟨t :: rest', last⟩)
    (hk : Settled G k ctx ⟨t :: rest, last⟩) : Settled G r ctx ⟨t :: rest, last⟩ where
  ok a st' ha := by
    rw [hr ctx rest hb] at ha
    obtain ⟨used, hused, hG, hall⟩ := hk.ok a st' ha
    refine ⟨used, hused, hG, fun ctx' rest' hsource hlength hhead => ?_⟩
    obtain ⟨u, used, rfl⟩ := List.exists_cons_of_ne_nil fun h : used = [] => hne _ hG (by simp [h])
    cases hused
    rw [List.cons_append] at hlength ⊢
    rw [hr ctx' _ hlength]
    exact hall ctx' rest' hsource hlength hhead
  error f hf := by
    rw [hr ctx rest hb] at hf
    refine (hk.error f hf).imp (fun _ h => h) fun ctx' us _ hlength hhead hus => ?_
    obtain ⟨us, rfl⟩ := List.head?_eq_some_iff.mp hhead
    rw [hr ctx' us hlength]
    exact hus

/-- A reader of rows that are never empty takes a token. -/
theorem Settled.shorter {st' : State} {a : α} (h : Settled G r ctx st) (hne : ∀ ks, G ks → ks ≠ [])
    (ha : r ctx st = .ok (a, st')) : st'.rest.length < st.rest.length := by
  obtain ⟨used, hused, hG, -⟩ := h.ok a st' ha
  have hpos : 0 < used.length := List.length_pos_iff.mpr fun he => hne _ hG (by simp [he])
  rw [hused, List.length_append]
  omega

end

theorem variableName_steady : Steady (fun ks => ∃ n, ks = [.name n]) variableName := by
  rintro ctx ⟨_ | ⟨t, rest⟩, last⟩ -
  · exact .atEnd "variable name" rfl ⟨_, "x", rfl⟩
  · by_cases ht : ∃ n, t.kind = .name n
    · obtain ⟨n, hn⟩ := ht
      exact .taken (fun _ _ => variableName_of_kind hn) ⟨n, by rw [hn]⟩
    · refine .refused (.unexpectedToken "variable name" t.text) (.inl rfl)
        (fun ctx' rest' => ?_) ⟨_, "x", rfl⟩
      unfold variableName
      dsimp only
      split
      · rename_i n hn
        exact absurd ⟨n, hn⟩ ht
      · rfl

/-- A sign is read, and then the rest. -/
theorem Steady.sign {k : Context → Reader β} (s : Sign) (what : String)
    (hH : H.Some) (hk : Steady H k) :
    Steady ((Rows.one (.sign s)).next H) fun ctx st => Parse.sign ctx s what st >>= k ctx := by
  let r : Context → Reader Unit := fun ctx st => (Parse.sign ctx s what st).map fun st => ((), st)
  have hr : Steady (.one (.sign s)) r := by
    rintro ctx ⟨_ | ⟨t, rest⟩, last⟩ -
    · exact .atEnd what rfl ⟨_, rfl⟩
    · by_cases ht : t.kind = .sign s
      · refine .taken (a := ()) (fun ctx' rest' => ?_) (by rw [ht]; rfl)
        simp only [r, sign_of_kind ht]
        rfl
      · refine .refused (.unexpectedToken what t.text) (.inl rfl) (fun ctx' rest' => ?_) ⟨_, rfl⟩
        simp only [r, Parse.sign, ht, if_false]
        rfl
  have heq : ∀ ctx st, (Parse.sign ctx s what st >>= k ctx) = r ctx st >>= fun p => k ctx p.2 := by
    intro ctx st
    simp only [r]
    cases Parse.sign ctx s what st <;> rfl
  simp only [heq]
  exact hr.bind hH fun _ => hk

/-- Nothing more is read. -/
theorem Steady.done {g : State → α} (hg : ∀ st st', st.last = st'.last → g st = g st') :
    Steady .empty fun _ st => pure (g st, st) := by
  refine fun ctx st _ => ⟨fun a st' ha => ?_, fun f hf => by cases hf⟩
  cases ha
  refine ⟨[], rfl, rfl, fun ctx' rest _ _ _ => ?_⟩
  rw [hg st ⟨rest, st.last⟩ rfl]
  rfl

/-- A reader, and a value made of what it has read. -/
theorem Settled.map {r : Context → Reader α} {g : α → State → β} (hr : Settled G r ctx st)
    (hb : st.rest.length < ctx.bound)
    (hg : ∀ a st st', st.last = st'.last → g a st = g a st') :
    Settled G (fun ctx st => r ctx st >>= fun p => pure (g p.1 p.2, p.2)) ctx st := by
  have hbind := hr.bind (k := fun a _ st => pure (g a st, st)) .empty fun a st' ha => by
    obtain ⟨used, hused, -⟩ := hr.ok a st' ha
    exact Steady.done (hg a) ctx st' (length_lt_of_append hused hb)
  refine hbind.mono ?_
  rintro _ ⟨us, _, rfl, hus, rfl⟩
  rwa [List.append_nil]

/-- Nothing more is read than perhaps a semicolon. -/
theorem Steady.skipSemicolon {g : State → State → α}
    (hg : ∀ st st' su su', st.last = st'.last → su.last = su'.last → g st su = g st' su') :
    Steady MaybeSemicolon fun _ st => pure (g st (skipSemicolon st), skipSemicolon st) := by
  refine fun ctx st _ => ⟨fun a st' ha => ?_, fun f hf => by cases hf⟩
  cases ha
  rcases skipSemicolon_cases st with ⟨heq, hnot⟩ | ⟨t, rest, hst, hk, heq⟩
  · refine ⟨[], by rw [heq]; rfl, .absent, fun ctx' rest _ _ hhead => ?_⟩
    have hskip : Parse.skipSemicolon ⟨rest, st.last⟩ = ⟨rest, st.last⟩ := by
      rcases skipSemicolon_cases ⟨rest, st.last⟩ with ⟨heq', -⟩ | ⟨t, rest', hst, hk, -⟩
      · exact heq'
      · rw [heq, show rest = t :: rest' from hst] at hhead
        exact absurd hk (hnot t hhead.symm)
    rw [List.nil_append, hskip, heq, hg st ⟨rest, st.last⟩ st ⟨rest, st.last⟩ rfl rfl]
    rfl
  · refine ⟨[t], by rw [heq]; exact hst, by rw [kinds_cons, hk]; exact .present, ?_⟩
    intro ctx' rest' _ _ _
    have hskip : Parse.skipSemicolon ⟨t :: rest', st.last⟩ = .after t rest' := by
      simp [Parse.skipSemicolon, hk]
    rw [List.singleton_append, hskip, heq,
      hg st ⟨t :: rest', st.last⟩ (.after t rest) (.after t rest') rfl rfl]
    rfl

end DialogueScript.Parse
