import DialogueScript.Proofs.ParseComplete
import DialogueScript.Proofs.ParseLevels
import DialogueScript.Proofs.ParseResults

/-!
# Parsing is deriving

The program read from a list of tokens against the grammar of `Proofs.Grammar`.

* `program_eq_ok_iff` — with a given number of levels, a program is read exactly when its tokens
  derive it;
* `derives_unique` — a row of kinds derives at most one program, spans left out;
* `Program.ofTokens_iff_derives` — the same for whole lists of tokens with an end, where nothing
  behind the first end counts and every other result is a failure of parsing.
-/

namespace DialogueScript

namespace Parse

open Grammar

theorem statement_ne_nil {levels : Nat} : ∀ ks s, Statement levels ks s → ks ≠ [] := by
  rintro ks s h rfl
  obtain ⟨k, more, hks, -⟩ := h.head
  cases hks

/-- Reading a whole list of tokens inside any number of levels is deriving. -/
theorem statements_eq_ok_iff (ctx : Context) (levels : Nat) (ts : List Token)
    (hbound : ts.length < ctx.bound) (p : List Stmt) :
    (∃ q, statements (statement ctx levels) ctx.bound ⟨ts, {}⟩ = .ok q ∧ Stmt.eraseAll q = p) ↔
      Grammar.Program levels (kinds ts) p := by
  constructor
  · rintro ⟨q, hq, rfl⟩
    exact statements_sound (statement_sound levels) statement_ne_nil _ _ _ hbound hbound hq
  · intro h
    exact statements_complete (statement_complete levels) (fun _ _ => Statement.head) h ts {} _ rfl
      hbound hbound

theorem program_eq_ok_iff (nesting : Nat) (source : Option String) (body : List Token)
    (finish : Token) (p : Program) :
    (∃ q, program nesting source body finish = .ok q ∧ q.erase = p) ↔
      Grammar.Program nesting (kinds body) p :=
  statements_eq_ok_iff ⟨finish, source, body.length + 1⟩ nesting body (Nat.lt_succ_self _) p

/-- A program that is read with fewer levels is read with more. -/
theorem program_eq_ok_iff_derives (nesting : Nat) (source : Option String) (body : List Token)
    (finish : Token)
    (hlevels : ∀ f, program nesting source body finish = .error f → f.fault ≠ .parseTooDeep)
    (p : Program) :
    (∃ q, program nesting source body finish = .ok q ∧ q.erase = p) ↔ Derives (kinds body) p := by
  constructor
  · intro h
    exact ⟨nesting, (program_eq_ok_iff nesting source body finish p).mp h⟩
  · rintro ⟨n, hn⟩
    let ctx : Context := ⟨finish, source, body.length + 1⟩
    obtain ⟨q, hq, herase⟩ := (statements_eq_ok_iff ctx (max nesting n) body
      (Nat.lt_succ_self _) p).mpr (hn.mono (Nat.le_max_right _ _))
    rcases @statements_deepens_le ctx _ _ (Nat.le_max_left nesting n) ctx.bound ⟨body, {}⟩
      with heq | ⟨f, hf, hdeep⟩
    · exact ⟨q, by rw [heq] at hq; exact hq, herase⟩
    · exact absurd hdeep (hlevels f hf)

/-- A row of kinds derives at most one program. -/
theorem derives_unique {ks : List Kind} {p q : List Stmt} (hp : Derives ks p) (hq : Derives ks q) :
    p = q := by
  obtain ⟨n, hn⟩ := hp
  obtain ⟨m, hm⟩ := hq
  -- any tokens of these kinds will do, and so will any context with rounds enough
  let ts : List Token := ks.map fun k => ⟨k, "", default⟩
  have hts : kinds ts = ks := by simp [ts, kinds, Function.comp_def]
  let ctx : Context := ⟨⟨.finish, "", default⟩, none, ts.length + 1⟩
  have hread := statements_eq_ok_iff ctx (max n m) ts (Nat.lt_succ_self _)
  rw [hts] at hread
  obtain ⟨p', hp', rfl⟩ := (hread p).mpr (hn.mono (Nat.le_max_left _ _))
  obtain ⟨q', hq', rfl⟩ := (hread q).mpr (hm.mono (Nat.le_max_right _ _))
  rw [hp'] at hq'
  cases hq'
  rfl

end Parse

namespace Program

open Parse

/-- The tokens before the first end of a text. -/
def body (tokens : List Token) : List Token := tokens.takeWhile (·.kind != .finish)

/-- A list of tokens with an end is read up to its first one. -/
theorem ofTokens_of_ended {tokens : List Token} (limits : Limits) (source : Option String)
    (hend : ∃ t ∈ tokens.getLast?, t.kind = .finish) :
    ∃ finish, ofTokens limits tokens source =
      (Parse.program limits.nesting source (body tokens) finish).mapError .failure := by
  obtain ⟨t, ht, hk⟩ := hend
  have hmem : t ∈ tokens := List.mem_of_getLast? ht
  obtain ⟨finish, hfind⟩ : ∃ finish, tokens.find? (·.kind == .finish) = some finish :=
    Option.isSome_iff_exists.mp (List.find?_isSome.mpr ⟨t, hmem, by simp [hk]⟩)
  refine ⟨finish, ?_⟩
  unfold ofTokens
  rw [Option.mem_def.mp ht, hfind]
  exact if_pos hk

/-- **A list of tokens with an end is read as a program exactly when the tokens before its first end
derive this program.**  Inside the limit on levels this holds with the limit built into the grammar
and, unless the limit is what stopped the reader, also without.  The program is the only one these
tokens derive, and whatever is not read is refused by a failure of parsing. -/
theorem ofTokens_iff_derives {tokens : List Token} (limits : Limits) (source : Option String)
    (hend : ∃ t ∈ tokens.getLast?, t.kind = .finish) :
    (∀ p, (∃ q, ofTokens limits tokens source = .ok q ∧ q.erase = p) ↔
      Grammar.Program limits.nesting (kinds (body tokens)) p) ∧
    ((∀ f, ofTokens limits tokens source = .error (.failure f) → f.fault ≠ .parseTooDeep) →
      ∀ p, (∃ q, ofTokens limits tokens source = .ok q ∧ q.erase = p) ↔
        Grammar.Derives (kinds (body tokens)) p) ∧
    (∀ p q, Grammar.Derives (kinds (body tokens)) p → Grammar.Derives (kinds (body tokens)) q →
      p = q) ∧
    ((∀ q, ofTokens limits tokens source ≠ .ok q) →
      ∃ f, ofTokens limits tokens source = .error (.failure f) ∧ f.fault.kind = .parse) := by
  obtain ⟨finish, heq⟩ := ofTokens_of_ended limits source hend
  have hok : ∀ q, ofTokens limits tokens source = .ok q ↔
      Parse.program limits.nesting source (body tokens) finish = .ok q := by
    intro q
    rw [heq]
    cases Parse.program limits.nesting source (body tokens) finish <;> simp [Except.mapError]
  have herror : ∀ f, ofTokens limits tokens source = .error (.failure f) ↔
      Parse.program limits.nesting source (body tokens) finish = .error f := by
    intro f
    rw [heq]
    cases Parse.program limits.nesting source (body tokens) finish <;> simp [Except.mapError]
  refine ⟨?_, ?_, ?_, ?_⟩
  · intro p
    simp only [hok]
    exact program_eq_ok_iff limits.nesting source (body tokens) finish p
  · intro hlevels p
    simp only [herror] at hlevels
    simp only [hok]
    exact program_eq_ok_iff_derives limits.nesting source (body tokens) finish hlevels p
  · intro p q hp hq
    exact derives_unique hp hq
  · intro hnot
    simp only [ne_eq, hok] at hnot
    simp only [herror]
    cases hp : Parse.program limits.nesting source (body tokens) finish with
    | ok q => exact absurd hp (hnot q)
    | error f => exact ⟨f, rfl, program_error_kind hp⟩

/-- The tokens of `loop { if (a == "b") x = y = a; }; ` with more behind their first end. -/
def sampleTokens : List Token :=
  ([.keyword .loop, .sign .openBrace, .keyword .branch, .sign .openParen, .name "a", .sign .equals,
    .text "b", .sign .closeParen, .name "x", .sign .assign, .name "y", .sign .assign, .name "a",
    .sign .semicolon, .sign .closeBrace, .sign .semicolon, .finish, .sign .star, .finish] :
      List Kind).map fun k => ⟨k, "", default⟩

def sampleTree : Program :=
  [.loop (.block [.branch (.binary (.name "a" none) .equals (.literal (.text "b") none) none)
    (.express (.assign "x" (.assign "y" (.name "a" none) none) none) none) none] none) none]

theorem ofTokens_sampleTokens :
    (∃ t ∈ sampleTokens.getLast?, t.kind = .finish) ∧
      Grammar.Derives (kinds (body sampleTokens)) sampleTree ∧
      ∀ p, Grammar.Derives (kinds (body sampleTokens)) p → p = sampleTree := by
  have hend : ∃ t ∈ sampleTokens.getLast?, t.kind = .finish := ⟨_, rfl, rfl⟩
  obtain ⟨hread, -, hunique, -⟩ := ofTokens_iff_derives .small none hend
  have hderives := (hread sampleTree).mp ⟨_, rfl, rfl⟩
  exact ⟨hend, ⟨_, hderives⟩, fun p hp => hunique _ _ hp ⟨_, hderives⟩⟩

end Program

end DialogueScript
