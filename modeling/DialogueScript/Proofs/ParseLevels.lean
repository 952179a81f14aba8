import DialogueScript.Proofs.Readers

/-!
# Levels of readers

* `Deepens` — one result against another that had more levels to use: they are the same, unless the
  first is the failure of too many levels;
* `expression_deepens`, `statement_deepens`, `statements_deepens` — a reader with more levels
  deepens one with fewer.
-/

namespace DialogueScript.Parse

variable {α β : Type} {ctx : Context}

/-- The second result is what the first would be with more levels. -/
def Deepens (x y : Except Failure α) : Prop :=
  y = x ∨ ∃ f, x = .error f ∧ f.fault = .parseTooDeep

theorem Deepens.refl (x : Except Failure α) : Deepens x x := .inl rfl

theorem Deepens.bind {x y : Except Failure α} {f g : α → Except Failure β} (hxy : Deepens x y)
    (hfg : ∀ a, Deepens (f a) (g a)) : Deepens (x >>= f) (y >>= g) := by
  rcases hxy with rfl | ⟨e, rfl, he⟩
  · cases y with
    | error e => exact .refl _
    | ok a => exact hfg a
  · exact .inr ⟨e, rfl, he⟩

theorem Deepens.trans {x y z : Except Failure α} (hxy : Deepens x y) (hyz : Deepens y z) :
    Deepens x z := by
  rcases hxy with rfl | h
  · exact hyz
  · exact .inr h

/-- A reader against another that has more levels. -/
def DeepensAll (r r' : Reader α) : Prop := ∀ st, Deepens (r st) (r' st)

theorem primary_deepens {r r' : Reader Expr} (h : DeepensAll r r') :
    DeepensAll (primary ctx r) (primary ctx r') := by
  intro st
  unfold primary
  split
  · split
    case h_4 => exact (h _).bind fun _ => .refl _
    all_goals exact .refl _
  · exact .refl _

theorem chainRest_deepens {r r' : Reader Expr} (h : DeepensAll r r')
    (operator : Kind → Option Operator) (first : Token) :
    ∀ n left, DeepensAll (chainRest r operator first n left)
      (chainRest r' operator first n left) := by
  intro n
  induction n with
  | zero => exact fun left st => .refl _
  | succ n ih =>
    intro left st
    unfold chainRest
    split
    · exact .refl _
    · rename_i t rest _
      split
      · exact .refl _
      · rcases h (.after t rest) with heq | ⟨f, hr, hf⟩
        · rw [heq]
          cases r (.after t rest) with
          | error f => exact .refl _
          | ok p => exact ih _ _
        · exact .inr ⟨f, by rw [hr], hf⟩

theorem chain_deepens {r r' : Reader Expr} (h : DeepensAll r r')
    (operator : Kind → Option Operator) :
    DeepensAll (chain ctx r operator) (chain ctx r' operator) := by
  intro st
  unfold chain
  rcases h st with heq | ⟨f, hr, hf⟩
  · rw [heq]
    cases r st with
    | error f => exact .refl _
    | ok p => exact chainRest_deepens h operator _ _ _ _
  · exact .inr ⟨f, by rw [hr], hf⟩

theorem comparison_deepens {r r' : Reader Expr} (h : DeepensAll r r') :
    DeepensAll (comparison ctx r) (comparison ctx r') :=
  chain_deepens (chain_deepens (chain_deepens (primary_deepens h) _) _) _

theorem expression_deepens (levels : Nat) :
    DeepensAll (expression ctx levels) (expression ctx (levels + 1)) := by
  induction levels with
  | zero => exact fun st => .inr ⟨_, rfl, rfl⟩
  | succ levels ih =>
    intro st
    unfold expression
    split
    · rename_i t a rest _
      split
      · rcases ih (.after a rest) with heq | ⟨f, hr, hf⟩
        · rw [heq]
          exact .refl _
        · exact .inr ⟨f, by rw [hr], hf⟩
      · exact comparison_deepens ih st
    · exact comparison_deepens ih st

theorem blockRest_deepens {r r' : Reader Stmt} (h : DeepensAll r r') :
    ∀ n, DeepensAll (blockRest ctx r n) (blockRest ctx r' n) := by
  intro n
  induction n with
  | zero => exact fun st => .refl _
  | succ n ih =>
    intro st
    unfold blockRest
    split
    · exact .refl _
    · split
      · exact .refl _
      · rcases h st with heq | ⟨f, hr, hf⟩
        · rw [heq]
          cases r st with
          | error f => exact .refl _
          | ok p =>
            rcases ih p.2 with heq | ⟨f, hr, hf⟩
            · dsimp only
              rw [heq]
              exact .refl _
            · exact .inr ⟨f, by simp only [hr], hf⟩
        · exact .inr ⟨f, by rw [hr], hf⟩

theorem statement_deepens (levels : Nat) :
    DeepensAll (statement ctx levels) (statement ctx (levels + 1)) := by
  induction levels with
  | zero => exact fun st => .inr ⟨_, rfl, rfl⟩
  | succ levels ih =>
    intro st
    have hexpr := @expression_deepens ctx levels
    unfold statement
    generalize statement ctx levels = r at ih
    generalize statement ctx (levels + 1) = r' at ih
    split
    · exact .refl _
    · rename_i t rest hst
      split
      · exact (Deepens.refl _).bind fun p => (Deepens.refl _).bind fun st =>
          (hexpr st).bind fun _ => .refl _
      · exact (hexpr _).bind fun _ => .refl _
      · exact .refl _
      · exact (Deepens.refl _).bind fun st => (hexpr st).bind fun p =>
          (Deepens.refl _).bind fun st => (ih st).bind fun _ => .refl _
      · exact (ih _).bind fun _ => .refl _
      · exact .refl _
      · exact (blockRest_deepens ih _ _).bind fun _ => .refl _
      · exact .refl _
      · exact (hexpr _).bind fun _ => .refl _

theorem statements_deepens {r r' : Reader Stmt} (h : DeepensAll r r') :
    ∀ n st, Deepens (statements r n st) (statements r' n st) := by
  intro n
  induction n with
  | zero => exact fun st => .refl _
  | succ n ih =>
    intro st
    unfold statements
    split
    · exact .refl _
    · rcases h st with heq | ⟨f, hr, hf⟩
      · rw [heq]
        cases r st with
        | error f => exact .refl _
        | ok p =>
          rcases ih p.2 with heq | ⟨f, hr, hf⟩
          · dsimp only
            rw [heq]
            exact .refl _
          · exact .inr ⟨f, by simp only [hr], hf⟩
      · exact .inr ⟨f, by rw [hr], hf⟩

theorem statements_deepens_le {n m : Nat} (hnm : n ≤ m) (bound : Nat) (st : State) :
    Deepens (statements (statement ctx n) bound st) (statements (statement ctx m) bound st) := by
  induction hnm with
  | refl => exact .refl _
  | step _ ih => exact ih.trans (statements_deepens (statement_deepens _) bound st)

end DialogueScript.Parse
