import DialogueScript.Proofs.Readers

/-!
# What reading keeps

One induction for all facts about what the readers return that are made up token by token: a
property of the tokens, one of the places where tokens stop, and what follows for every failure and
every node that is made from them.

* `Parse.Keeps` — the properties, with one field for each way to make a failure or a node;
* `Parse.Yields` — a result that is a success with some property, or a failure with another;
* `Keeps.expression`, `Keeps.statement` — the readers keep the properties;
* `Keeps.program` — **so does reading a whole program**.
-/

namespace DialogueScript.Parse

variable {α β : Type} {ctx : Context} {K : Token → Prop} {L : Location → Prop}
  {F : Failure → Prop} {E : Expr → Prop} {T : Stmt → Prop} {st : State}

/-- The span from a token on to some place. -/
def spanTo (t : Token) (l : Location) : Option Span := some ⟨t.span.file, t.span.start, l⟩

/-- What follows from a property of the tokens: it holds of the places `L` where tokens stop, of the
failures `F` that are about tokens, and of the expressions `E` and the statements `T` that are read
from tokens. -/
structure Keeps (ctx : Context) (K : Token → Prop) (L : Location → Prop) (F : Failure → Prop)
    (E : Expr → Prop) (T : Stmt → Prop) : Prop where
  stop : ∀ {t}, K t → L t.span.stop
  finish : K ctx.finish
  -- failures
  unexpectedToken : ∀ what {t}, K t → F ⟨.unexpectedToken what t.text, some t.span, ctx.lineOf t⟩
  unexpectedEnd : ∀ what, F ⟨.unexpectedEnd what, some ctx.finish.span, none⟩
  function : ∀ {t}, K t → t.kind = .keyword .function →
    F ⟨.functionDeclared, some t.span, ctx.lineOf t⟩
  tooDeep : ∀ {t}, K t → F ⟨.parseTooDeep, some t.span, ctx.lineOf t⟩
  -- expressions
  number : ∀ {t x}, K t → t.kind = .number x → E (.literal (.number x) (some t.span))
  text : ∀ {t s}, K t → t.kind = .text s → E (.literal (.text s) (some t.span))
  name : ∀ {t n}, K t → t.kind = .name n → E (.name n (some t.span))
  assign : ∀ {t n v l}, K t → t.kind = .name n → L l → E v → E (.assign n v (spanTo t l))
  binary : ∀ {t a op b l}, K t → L l → E a → E b → E (.binary a op b (spanTo t l))
  -- statements
  declare : ∀ {t n e l}, K t → L l → E e → T (.declare n e (spanTo t l))
  speak : ∀ {t e l}, K t → L l → E e → T (.speak e (spanTo t l))
  input : ∀ {t n l}, K t → L l → T (.input n (spanTo t l))
  branch : ∀ {t c body l}, K t → L l → E c → T body → T (.branch c body (spanTo t l))
  loop : ∀ {t body l}, K t → L l → T body → T (.loop body (spanTo t l))
  exit : ∀ {t l}, K t → L l → T (.exit (spanTo t l))
  block : ∀ {t body l}, K t → L l → (∀ stmt ∈ body, T stmt) → T (.block body (spanTo t l))
  express : ∀ {t e l}, K t → L l → E e → T (.express e (spanTo t l))

/-- The tokens that are left have the property, and the last one that was read had it. -/
structure State.Kept (K : Token → Prop) (L : Location → Prop) (st : State) : Prop where
  rest : ∀ t ∈ st.rest, K t
  last : L st.last

/-- A success with a property, or a failure with another. -/
def Yields (F : Failure → Prop) (Q : α → Prop) : Except Failure α → Prop
  | .ok a => Q a
  | .error f => F f

theorem Yields.bind {Q : α → Prop} {Q' : β → Prop} {x : Except Failure α}
    {f : α → Except Failure β} (hx : Yields F Q x) (hf : ∀ a, Q a → Yields F Q' (f a)) :
    Yields F Q' (x >>= f) := by
  cases x with
  | error e => exact hx
  | ok a => exact hf a hx

/-- The reader keeps states and returns values with a property. -/
def Keeps.Reads (K : Token → Prop) (L : Location → Prop) (F : Failure → Prop) (Q : α → Prop)
    (r : Reader α) : Prop :=
  ∀ st, st.Kept K L → Yields F (fun p => Q p.1 ∧ p.2.Kept K L) (r st)

namespace Keeps

variable (h : Keeps ctx K L F E T)

include h

theorem next {t : Token} {rest : List Token} (hst : st.Kept K L) (hrest : st.rest = t :: rest) :
    K t ∧ (State.after t rest).Kept K L := by
  have ht : K t := hst.rest t (by rw [hrest]; exact List.mem_cons_self)
  refine ⟨ht, fun u hu => hst.rest u ?_, h.stop ht⟩
  rw [hrest]
  exact List.mem_cons_of_mem t hu

theorem next_token (hst : st.Kept K L) : K (st.next ctx) := by
  unfold State.next
  cases hrest : st.rest with
  | nil => exact h.finish
  | cons t rest => exact (h.next hst hrest).1

theorem expected (what : String) (hst : st.Kept K L) : F (ctx.expected what st) := by
  unfold Context.expected
  split
  · exact h.unexpectedEnd what
  · rename_i t rest hrest
    exact h.unexpectedToken what (h.next hst hrest).1

theorem sign (s : Sign) (what : String) (hst : st.Kept K L) :
    Yields F (State.Kept K L) (Parse.sign ctx s what st) := by
  unfold Parse.sign
  split
  · rename_i t rest hrest
    split
    · exact (h.next hst hrest).2
    · exact h.expected what hst
  · exact h.expected what hst

theorem variableName : Reads K L F (fun _ => True) (Parse.variableName ctx) := by
  intro st hst
  unfold Parse.variableName
  split
  · rename_i t rest hrest
    split
    · exact ⟨trivial, (h.next hst hrest).2⟩
    · exact h.expected _ hst
  · exact h.expected _ hst

theorem skipSemicolon (hst : st.Kept K L) : (Parse.skipSemicolon st).Kept K L := by
  rcases skipSemicolon_cases st with ⟨heq, -⟩ | ⟨t, rest, hrest, -, heq⟩
  · rw [heq]
    exact hst
  · rw [heq]
    exact (h.next hst hrest).2

/-! ## Expressions -/

theorem primary {r : Reader Expr} (hr : Reads K L F E r) :
    Reads K L F E (Parse.primary ctx r) := by
  intro st hst
  unfold Parse.primary
  split
  · rename_i t rest hrest
    obtain ⟨ht, hafter⟩ := h.next hst hrest
    split
    · rename_i hk
      exact ⟨h.number ht hk, hafter⟩
    · rename_i hk
      exact ⟨h.text ht hk, hafter⟩
    · rename_i hk
      exact ⟨h.name ht hk, hafter⟩
    · refine (hr _ hafter).bind fun p hp => ?_
      exact (h.sign _ _ hp.2).bind fun st₂ hst₂ => ⟨hp.1, hst₂⟩
    · exact h.expected _ hst
  · exact h.expected _ hst

theorem chainRest {r : Reader Expr} (hr : Reads K L F E r) (operator : Kind → Option Operator)
    {first : Token} (hfirst : K first) (n : Nat) {left : Expr} (hleft : E left) :
    Reads K L F E (Parse.chainRest r operator first n left) := by
  induction n generalizing left with
  | zero => exact fun st hst => ⟨hleft, hst⟩
  | succ n ih =>
    intro st hst
    unfold Parse.chainRest
    split
    · exact ⟨hleft, hst⟩
    · rename_i t rest hrest
      split
      · exact ⟨hleft, hst⟩
      · have hright := hr _ (h.next hst hrest).2
        split
        · rename_i hf
          rw [hf] at hright
          exact hright
        · rename_i right st₁ hok
          rw [hok] at hright
          exact ih (h.binary hfirst hright.2.last hleft hright.1) st₁ hright.2

theorem chain {r : Reader Expr} (hr : Reads K L F E r) (operator : Kind → Option Operator) :
    Reads K L F E (Parse.chain ctx r operator) := by
  intro st hst
  have hleft := hr st hst
  unfold Parse.chain
  split
  · rename_i hf
    rw [hf] at hleft
    exact hleft
  · rename_i left st₁ hok
    rw [hok] at hleft
    exact h.chainRest hr operator (h.next_token hst) _ hleft.1 st₁ hleft.2

theorem comparison {r : Reader Expr} (hr : Reads K L F E r) :
    Reads K L F E (Parse.comparison ctx r) :=
  h.chain (h.chain (h.chain (h.primary hr) _) _) _

theorem expression (levels : Nat) : Reads K L F E (Parse.expression ctx levels) := by
  induction levels with
  | zero => exact fun st hst => h.tooDeep (h.next_token hst)
  | succ levels ih =>
    intro st hst
    unfold Parse.expression
    split
    · rename_i t a rest hrest
      split
      · rename_i n hk _
        obtain ⟨ht, hafter⟩ := h.next hst hrest
        have hvalue := ih _ (h.next hafter rfl).2
        split
        · rename_i hf
          rw [hf] at hvalue
          exact hvalue
        · rename_i v st₁ hok
          rw [hok] at hvalue
          exact ⟨h.assign ht hk hvalue.2.last hvalue.1, hvalue.2⟩
      · exact h.comparison ih st hst
    · exact h.comparison ih st hst

/-! ## Statements -/

theorem blockRest {r : Reader Stmt} (hr : Reads K L F T r) (n : Nat) :
    Reads K L F (fun p => ∀ s ∈ p, T s) (Parse.blockRest ctx r n) := by
  induction n with
  | zero => exact fun st hst => ⟨List.forall_mem_nil _, hst⟩
  | succ n ih =>
    intro st hst
    unfold Parse.blockRest
    split
    · exact h.expected _ hst
    · rename_i t rest hrest
      split
      · exact ⟨List.forall_mem_nil _, (h.next hst hrest).2⟩
      · have hs := hr st hst
        split
        · rename_i hf
          rw [hf] at hs
          exact hs
        · rename_i s st₁ hok
          rw [hok] at hs
          have hss := ih st₁ hs.2
          split
          · rename_i hf
            rw [hf] at hss
            exact hss
          · rename_i ss st₂ hok
            rw [hok] at hss
            exact ⟨List.forall_mem_cons.mpr ⟨hs.1, hss.1⟩, hss.2⟩

theorem statement (levels : Nat) : Reads K L F T (Parse.statement ctx levels) := by
  induction levels with
  | zero => exact fun st hst => h.tooDeep (h.next_token hst)
  | succ levels ih =>
    intro st hst
    unfold Parse.statement
    split
    · exact h.expected _ hst
    · rename_i t rest hrest
      obtain ⟨ht, hafter⟩ := h.next hst hrest
      split
      · refine (h.variableName _ hafter).bind fun p hp => ?_
        refine (h.sign _ _ hp.2).bind fun st₂ h₂ => ?_
        refine (h.expression levels _ h₂).bind fun q hq => ?_
        exact (h.sign _ _ hq.2).bind fun st₄ h₄ => ⟨h.declare ht h₄.last hq.1, h₄⟩
      · refine (h.expression levels _ hafter).bind fun q hq => ?_
        exact (h.sign _ _ hq.2).bind fun st₂ h₂ => ⟨h.speak ht h₂.last hq.1, h₂⟩
      · refine (h.variableName _ hafter).bind fun p hp => ?_
        exact (h.sign _ _ hp.2).bind fun st₂ h₂ => ⟨h.input ht h₂.last, h₂⟩
      · refine (h.sign _ _ hafter).bind fun st₁ h₁ => ?_
        refine (h.expression levels _ h₁).bind fun q hq => ?_
        refine (h.sign _ _ hq.2).bind fun st₃ h₃ => ?_
        refine (ih _ h₃).bind fun b hb => ?_
        have h₅ := h.skipSemicolon hb.2
        exact ⟨h.branch ht h₅.last hq.1 hb.1, h₅⟩
      · refine (ih _ hafter).bind fun b hb => ?_
        have h₂ := h.skipSemicolon hb.2
        exact ⟨h.loop ht h₂.last hb.1, h₂⟩
      · exact (h.sign _ _ hafter).bind fun st₁ h₁ => ⟨h.exit ht h₁.last, h₁⟩
      · refine (h.blockRest ih _ _ hafter).bind fun b hb => ?_
        exact ⟨h.block ht hb.2.last hb.1, h.skipSemicolon hb.2⟩
      · rename_i hk
        exact h.function ht hk
      · refine (h.expression levels _ hst).bind fun q hq => ?_
        exact (h.sign _ _ hq.2).bind fun st₂ h₂ => ⟨h.express ht h₂.last hq.1, h₂⟩

omit h in
theorem statements {r : Reader Stmt} (hr : Reads K L F T r) (n : Nat) (hst : st.Kept K L) :
    Yields F (fun p => ∀ s ∈ p, T s) (Parse.statements r n st) := by
  induction n generalizing st with
  | zero => exact List.forall_mem_nil _
  | succ n ih =>
    unfold Parse.statements
    split
    · exact List.forall_mem_nil _
    · have hs := hr st hst
      split
      · rename_i hf
        rw [hf] at hs
        exact hs
      · rename_i s st₁ hok
        rw [hok] at hs
        have hss := ih hs.2
        split
        · rename_i hf
          rw [hf] at hss
          exact hss
        · rename_i ss hok
          rw [hok] at hss
          exact List.forall_mem_cons.mpr ⟨hs.1, hss⟩

omit h in
/-- **What the tokens have, the program has that is read from them**, or the failure. -/
theorem program (nesting : Nat) {source : Option String} {body : List Token} {finish : Token}
    (h : Keeps ⟨finish, source, body.length + 1⟩ K L F E T) (hbody : ∀ t ∈ body, K t)
    (hstart : L {}) : Yields F (fun p => ∀ s ∈ p, T s) (Parse.program nesting source body finish) :=
  statements (h.statement nesting) _ ⟨hbody, hstart⟩

end Keeps

end DialogueScript.Parse
