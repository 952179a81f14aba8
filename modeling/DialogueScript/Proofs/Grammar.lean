import DialogueScript.Syntax
import DialogueScript.Token

/-!
# The grammar of scripts

Which trees a row of kinds of tokens derives, written down apart from any reader.  Trees have no
spans here.

* `Chain` — operands with operators between them, grouped to the left: the three levels `Term`,
  `Sum`, `Comparison` of an expression are chains of one another;
* `Expression`, `Statement`, `Program` — what derives a tree inside a number of levels.  A statement
  inside another, an expression in parentheses and the value of an assignment are one level deeper;
* `Derives` — a program inside any number of levels.

A semicolon after a block, a branch or a loop may be left out, so a row of kinds can have several
derivations; that they all have the same tree is proved in `Proofs.Parsing`.

Principal results: `Statement.mono`, `Expression.mono` — more levels derive more;
`Statement.head` — how a statement can begin.
-/

namespace DialogueScript.Grammar

/-- The trees that rows of kinds derive. -/
abbrev Phrase (α : Type) := List Kind → α → Prop

/-! ## Expressions -/

/-- The operators of the tightest level. -/
inductive IsFactor : Kind → Operator → Prop
  | times : IsFactor (.sign .star) .times
  | dividedBy : IsFactor (.sign .slash) .dividedBy

inductive IsAddend : Kind → Operator → Prop
  | plus : IsAddend (.sign .plus) .plus
  | minus : IsAddend (.sign .minus) .minus

inductive IsEquality : Kind → Operator → Prop
  | equals : IsEquality (.sign .equals) .equals

/-- `operand ( operator operand )*`, grouped to the left. -/
inductive Chain (operand : Phrase Expr) (operator : Kind → Operator → Prop) : Phrase Expr
  | first {ks : List Kind} {e : Expr} (h : operand ks e) : Chain operand operator ks e
  | next {ls rs : List Kind} {k : Kind} {op : Operator} {l r : Expr}
      (hl : Chain operand operator ls l) (hk : operator k op) (hr : operand rs r) :
      Chain operand operator (ls ++ k :: rs) (.binary l op r none)

/-- `NUMBER | STRING | IDENTIFIER | '(' expression ')'`; parentheses leave no node. -/
inductive Primary (inner : Phrase Expr) : Phrase Expr
  | number (x : Float) : Primary inner [.number x] (.literal (.number x) none)
  | text (s : String) : Primary inner [.text s] (.literal (.text s) none)
  | name (n : String) : Primary inner [.name n] (.name n none)
  | parens {ks : List Kind} {e : Expr} (h : inner ks e) :
      Primary inner (.sign .openParen :: ks ++ [.sign .closeParen]) e

/-- `primary ( ( '*' | '/' ) primary )*` -/
def Term (inner : Phrase Expr) : Phrase Expr := Chain (Primary inner) IsFactor

/-- `term ( ( '+' | '-' ) term )*` -/
def Sum (inner : Phrase Expr) : Phrase Expr := Chain (Term inner) IsAddend

/-- `sum ( '==' sum )*` -/
def Comparison (inner : Phrase Expr) : Phrase Expr := Chain (Sum inner) IsEquality

/-- `IDENTIFIER '=' expression | comparison` -/
inductive Outer (inner : Phrase Expr) : Phrase Expr
  | assign (n : String) {ks : List Kind} {v : Expr} (h : inner ks v) :
      Outer inner (.name n :: .sign .assign :: ks) (.assign n v none)
  | comparison {ks : List Kind} {e : Expr} (h : Comparison inner ks e) : Outer inner ks e

/-- An expression inside `levels` levels. -/
def Expression : (levels : Nat) → Phrase Expr
  | 0 => fun _ _ => False
  | levels + 1 => Outer (Expression levels)

/-! ## Statements -/

/-- `';'?` -/
inductive MaybeSemicolon : List Kind → Prop
  | absent : MaybeSemicolon []
  | present : MaybeSemicolon [.sign .semicolon]

/-- `item*` -/
inductive Many (item : Phrase Stmt) : Phrase (List Stmt)
  | nil : Many item [] []
  | cons {ks ls : List Kind} {s : Stmt} {ss : List Stmt} (h : item ks s) (hs : Many item ls ss) :
      Many item (ks ++ ls) (s :: ss)

theorem Many.one {item : Phrase Stmt} {ks : List Kind} {s : Stmt} (h : item ks s) :
    Many item ks [s] := by
  have hmany := Many.cons h .nil
  rwa [List.append_nil] at hmany

/-- The statements, with `inner` for those inside and `expr` for their expressions. -/
inductive Form (inner : Phrase Stmt) (expr : Phrase Expr) : Phrase Stmt
  | declare (n : String) {ks : List Kind} {e : Expr} (h : expr ks e) :
      Form inner expr
        (.keyword .declare :: .name n :: .sign .assign :: ks ++ [.sign .semicolon])
        (.declare n e none)
  | speak {ks : List Kind} {e : Expr} (h : expr ks e) :
      Form inner expr (.keyword .speak :: ks ++ [.sign .semicolon]) (.speak e none)
  | input (n : String) :
      Form inner expr [.keyword .input, .name n, .sign .semicolon] (.input n none)
  | branch {cs ks semi : List Kind} {c : Expr} {s : Stmt} (hc : expr cs c) (hs : inner ks s)
      (hsemi : MaybeSemicolon semi) :
      Form inner expr
        (.keyword .branch :: .sign .openParen :: cs ++ .sign .closeParen :: ks ++ semi)
        (.branch c s none)
  | loop {ks semi : List Kind} {s : Stmt} (hs : inner ks s) (hsemi : MaybeSemicolon semi) :
      Form inner expr (.keyword .loop :: ks ++ semi) (.loop s none)
  | exit : Form inner expr [.keyword .exit, .sign .semicolon] (.exit none)
  | block {ks semi : List Kind} {ss : List Stmt} (hs : Many inner ks ss)
      (hsemi : MaybeSemicolon semi) :
      Form inner expr (.sign .openBrace :: ks ++ .sign .closeBrace :: semi) (.block ss none)
  | express {ks : List Kind} {e : Expr} (h : expr ks e) :
      Form inner expr (ks ++ [.sign .semicolon]) (.express e none)

/-- A statement inside `levels` levels. -/
def Statement : (levels : Nat) → Phrase Stmt
  | 0 => fun _ _ => False
  | levels + 1 => Form (Statement levels) (Expression levels)

/-- `statement*`, each statement inside `levels` levels. -/
def Program (levels : Nat) : Phrase (List Stmt) := Many (Statement levels)

/-- Without a level there is only the empty program. -/
theorem Program.eq_nil {ks : List Kind} {p : List Stmt} (h : Program 0 ks p) : p = [] := by
  cases h with
  | nil => rfl
  | cons hstmt _ => exact hstmt.elim

/-- A program inside any number of levels. -/
def Derives (ks : List Kind) (p : List Stmt) : Prop := ∃ levels, Program levels ks p

/-! ## More levels derive more -/

theorem Chain.mono {g g' : Phrase Expr} {operator : Kind → Operator → Prop}
    (hg : ∀ ks e, g ks e → g' ks e) {ks : List Kind} {e : Expr} (h : Chain g operator ks e) :
    Chain g' operator ks e := by
  induction h with
  | first h => exact .first (hg _ _ h)
  | next _ hk hr ih => exact .next ih hk (hg _ _ hr)

theorem Primary.mono {g g' : Phrase Expr} (hg : ∀ ks e, g ks e → g' ks e) {ks : List Kind}
    {e : Expr} (h : Primary g ks e) : Primary g' ks e := by
  cases h with
  | number x => exact .number x
  | text s => exact .text s
  | name n => exact .name n
  | parens h => exact .parens (hg _ _ h)

theorem Comparison.mono {g g' : Phrase Expr} (hg : ∀ ks e, g ks e → g' ks e) {ks : List Kind}
    {e : Expr} (h : Comparison g ks e) : Comparison g' ks e :=
  Chain.mono (fun _ _ => Chain.mono fun _ _ => Chain.mono fun _ _ => Primary.mono hg) h

theorem Expression.succ {levels : Nat} :
    ∀ ks e, Expression levels ks e → Expression (levels + 1) ks e := by
  induction levels with
  | zero => intro ks e h; exact h.elim
  | succ levels ih =>
    intro ks e h
    cases h with
    | assign n h => exact .assign n (ih _ _ h)
    | comparison h => exact .comparison (h.mono ih)

theorem Expression.mono {n m : Nat} (hnm : n ≤ m) {ks : List Kind} {e : Expr}
    (h : Expression n ks e) : Expression m ks e := by
  induction hnm with
  | refl => exact h
  | step _ ih => exact Expression.succ _ _ ih

theorem Many.mono {g g' : Phrase Stmt} (hg : ∀ ks s, g ks s → g' ks s) {ks : List Kind}
    {ss : List Stmt} (h : Many g ks ss) : Many g' ks ss := by
  induction h with
  | nil => exact .nil
  | cons h _ ih => exact .cons (hg _ _ h) ih

theorem Statement.succ {levels : Nat} :
    ∀ ks s, Statement levels ks s → Statement (levels + 1) ks s := by
  induction levels with
  | zero => intro ks s h; exact h.elim
  | succ levels ih =>
    intro ks s h
    cases h with
    | declare n h => exact .declare n (Expression.succ _ _ h)
    | speak h => exact .speak (Expression.succ _ _ h)
    | input n => exact .input n
    | branch hc hs hsemi => exact .branch (Expression.succ _ _ hc) (ih _ _ hs) hsemi
    | loop hs hsemi => exact .loop (ih _ _ hs) hsemi
    | exit => exact .exit
    | block hs hsemi => exact .block (hs.mono ih) hsemi
    | express h => exact .express (Expression.succ _ _ h)

theorem Statement.mono {n m : Nat} (hnm : n ≤ m) {ks : List Kind} {s : Stmt}
    (h : Statement n ks s) : Statement m ks s := by
  induction hnm with
  | refl => exact h
  | step _ ih => exact Statement.succ _ _ ih

theorem Program.mono {n m : Nat} (hnm : n ≤ m) {ks : List Kind} {p : List Stmt}
    (h : Program n ks p) : Program m ks p := by
  induction hnm with
  | refl => exact h
  | step _ ih => exact Many.mono Statement.succ ih

/-! ## How phrases begin -/

/-- Whether a row of kinds begins like an assignment. -/
def startsAssignment : List Kind → Bool
  | .name _ :: .sign .assign :: _ => true
  | _ => false

theorem Chain.ne_nil {g : Phrase Expr} {operator : Kind → Operator → Prop}
    (hg : ∀ ks e, g ks e → ks ≠ []) {ks : List Kind} {e : Expr} (h : Chain g operator ks e) :
    ks ≠ [] := by
  induction h with
  | first h => exact hg _ _ h
  | next => simp

/-- The kinds an expression can begin with. -/
inductive StartsExpression : Kind → Prop
  | number (x : Float) : StartsExpression (.number x)
  | text (s : String) : StartsExpression (.text s)
  | name (n : String) : StartsExpression (.name n)
  | openParen : StartsExpression (.sign .openParen)

theorem StartsExpression.no_form {k : Kind} (h : StartsExpression k) :
    (∀ w, k ≠ .keyword w) ∧ k ≠ .sign .openBrace := by
  cases h <;> simp

/-- What begins an expression and does not run into an assignment sign behind it. -/
structure Opens (ks : List Kind) : Prop where
  head : ∃ k more, ks = k :: more ∧ StartsExpression k
  plain : ∀ more, more.head? ≠ some (.sign .assign) → startsAssignment (ks ++ more) = false

theorem Primary.opens {g : Phrase Expr} {ks : List Kind} {e : Expr} (h : Primary g ks e) :
    Opens ks := by
  cases h with
  | number x => exact ⟨⟨_, [], rfl, .number x⟩, fun _ _ => rfl⟩
  | text s => exact ⟨⟨_, [], rfl, .text s⟩, fun _ _ => rfl⟩
  | name n =>
    refine ⟨⟨_, [], rfl, .name n⟩, fun more hmore => ?_⟩
    rw [List.singleton_append]
    unfold startsAssignment
    split
    · rename_i heq
      injection heq with _ heq
      simp [heq] at hmore
    · rfl
  | parens h => exact ⟨⟨_, _, rfl, .openParen⟩, fun _ _ => rfl⟩

theorem Chain.opens {g : Phrase Expr} {operator : Kind → Operator → Prop}
    (hg : ∀ ks e, g ks e → Opens ks) (ho : ∀ op, ¬ operator (.sign .assign) op)
    {ks : List Kind} {e : Expr} (h : Chain g operator ks e) : Opens ks := by
  induction h with
  | first h => exact hg _ _ h
  | next _ hk _ ih =>
    rename_i ls rs k op l r _ _
    obtain ⟨k', more, hks, hstart⟩ := ih.head
    refine ⟨⟨k', more ++ k :: rs, by simp [hks], hstart⟩, fun more _ => ?_⟩
    rw [List.append_assoc]
    refine ih.plain _ ?_
    simp only [List.cons_append, List.head?_cons, ne_eq, Option.some.injEq]
    rintro rfl
    exact ho _ hk

theorem Comparison.opens {g : Phrase Expr} {ks : List Kind} {e : Expr} (h : Comparison g ks e) :
    Opens ks :=
  Chain.opens (fun _ _ => Chain.opens (fun _ _ => Chain.opens (fun _ _ => Primary.opens)
    (by rintro op ⟨⟩)) (by rintro op ⟨⟩)) (by rintro op ⟨⟩) h

theorem Expression.head {levels : Nat} {ks : List Kind} {e : Expr} (h : Expression levels ks e) :
    ∃ k more, ks = k :: more ∧ StartsExpression k := by
  cases levels with
  | zero => exact h.elim
  | succ levels =>
    cases h with
    | assign n h => exact ⟨_, _, rfl, .name n⟩
    | comparison h => exact h.opens.head

/-- A statement begins with no semicolon and no closing brace. -/
theorem Statement.head {levels : Nat} {ks : List Kind} {s : Stmt} (h : Statement levels ks s) :
    ∃ k more, ks = k :: more ∧ k ≠ .sign .semicolon ∧ k ≠ .sign .closeBrace := by
  cases levels with
  | zero => exact h.elim
  | succ levels =>
    cases h with
    | express h =>
      obtain ⟨k, more, rfl, hk⟩ := h.head
      refine ⟨k, more ++ [.sign .semicolon], rfl, ?_, ?_⟩
      · rintro rfl
        cases hk
      · rintro rfl
        cases hk
    | _ => exact ⟨_, _, rfl, by simp, by simp⟩

end DialogueScript.Grammar
