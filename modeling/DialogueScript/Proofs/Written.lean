import DialogueScript.Proofs.Lexemes
import DialogueScript.Proofs.Parsing

/-!
# Programs written down

A program is written as the tokens of its grammar with blanks between them.  Operands that are
operations or assignments stand in parentheses; further parentheses, and the semicolons after
blocks, branches and loops, are a matter of style.  In every style a program is read back as it was,
spans left out.

* `Expr.kinds`, `Stmt.kinds` — the tokens of a tree in a style; `Program.written` — its text;
* `Expr.levels`, `Stmt.levels` — how many levels of nesting this text has;
* `Expr.Writable`, `Stmt.Writable` — the trees that can be written;
* `Expr.derives_kinds`, `Stmt.derives_kinds` — in the grammar, the tokens of a tree derive it;
* `Program.parse_written` — so the text of a program is read as this program.
-/

namespace DialogueScript

open Grammar

/-! ## Writing -/

/-- What the text of a program leaves open: which further expressions stand in parentheses, and
which blocks, branches and loops end with a semicolon. -/
structure Style where
  wraps : Expr → Bool
  closes : Stmt → Bool

/-- Whether an expression is an operation or an assignment. -/
def Expr.isCompound : Expr → Bool
  | .assign _ _ _ | .binary _ _ _ _ => true
  | .literal _ _ | .name _ _ | .stray _ _ => false

/-- Whether an operand stands in parentheses. -/
def Style.encloses (style : Style) (e : Expr) : Bool := e.isCompound || style.wraps e

/-- The token of an operator. -/
def Operator.kind (op : Operator) : Kind :=
  match op.sign? with
  | some s => .sign s
  | none => .bad op.symbol

/-- Tokens, in parentheses or not. -/
def Kind.enclosed (ks : List Kind) (parens : Bool) : List Kind :=
  if parens then .sign .openParen :: ks ++ [.sign .closeParen] else ks

/-- The tokens of an expression. -/
def Expr.kinds (style : Style) : Expr → List Kind
  | .literal (.number x) _ => [.number x]
  | .literal (.text s) _ => [.text s]
  | .name n _ => [.name n]
  | .assign n v _ => .name n :: .sign .assign :: Kind.enclosed (v.kinds style) (style.wraps v)
  | .binary l op r _ =>
    Kind.enclosed (l.kinds style) (style.encloses l) ++
      op.kind :: Kind.enclosed (r.kinds style) (style.encloses r)
  | .stray _ _ => []

/-- The semicolon after a block, a branch or a loop. -/
def Style.semicolon (style : Style) (stmt : Stmt) : List Kind :=
  if style.closes stmt then [.sign .semicolon] else []

mutual

/-- The tokens of a statement. -/
def Stmt.kinds (style : Style) : Stmt → List Kind
  | .block body span =>
    .sign .openBrace :: Stmt.kindsAll style body ++
      .sign .closeBrace :: style.semicolon (.block body span)
  | .express e _ => e.kinds style ++ [.sign .semicolon]
  | .branch c body span =>
    .keyword .branch :: .sign .openParen :: c.kinds style ++
      .sign .closeParen :: body.kinds style ++ style.semicolon (.branch c body span)
  | .loop body span => .keyword .loop :: body.kinds style ++ style.semicolon (.loop body span)
  | .speak e _ => .keyword .speak :: e.kinds style ++ [.sign .semicolon]
  | .input n _ => [.keyword .input, .name n, .sign .semicolon]
  | .declare n e _ =>
    .keyword .declare :: .name n :: .sign .assign :: e.kinds style ++ [.sign .semicolon]
  | .exit _ => [.keyword .exit, .sign .semicolon]
  | .stray _ _ => []

def Stmt.kindsAll (style : Style) : List Stmt → List Kind
  | [] => []
  | s :: ss => s.kinds style ++ Stmt.kindsAll style ss

end

/-- The text of a program. -/
def Program.written (style : Style) (p : Program) : String := Kind.spaced (Stmt.kindsAll style p)

/-! ## Levels of nesting -/

/-- How many levels the text of an expression has: an expression in parentheses and the value of an
assignment are one level deeper. -/
def Expr.levels (style : Style) : Expr → Nat
  | .assign _ v _ => 1 + if style.wraps v then 1 + v.levels style else v.levels style
  | .binary l _ r _ =>
    1 + max (if style.encloses l then l.levels style else 0)
      (if style.encloses r then r.levels style else 0)
  | .literal _ _ | .name _ _ | .stray _ _ => 1

mutual

/-- How many levels the text of a statement has: its expressions and the statements inside it are
one level deeper. -/
def Stmt.levels (style : Style) : Stmt → Nat
  | .block body _ => 1 + Stmt.levelsAll style body
  | .express e _ | .speak e _ | .declare _ e _ => 1 + e.levels style
  | .branch c body _ => 1 + max (c.levels style) (body.levels style)
  | .loop body _ => 1 + body.levels style
  | .input _ _ | .exit _ | .stray _ _ => 1

def Stmt.levelsAll (style : Style) : List Stmt → Nat
  | [] => 0
  | s :: ss => max (s.levels style) (Stmt.levelsAll style ss)

end

/-! ## What can be written -/

/-- The expression has names that are no keywords, numbers that have a numeral, texts without a
quote, and operators that have a sign. -/
def Expr.Writable : Expr → Prop
  | .literal (.number x) _ => Number.IsPlain x
  | .literal (.text s) _ => Text.Quoted.doubleQuote ∉ s.toList
  | .name n _ => IsName n
  | .assign n v _ => IsName n ∧ v.Writable
  | .binary l op r _ => l.Writable ∧ op ∈ Operator.all ∧ r.Writable
  | .stray _ _ => False

mutual

/-- So do the expressions of the statement. -/
def Stmt.Writable : Stmt → Prop
  | .block body _ => Stmt.WritableAll body
  | .express e _ | .speak e _ => e.Writable
  | .branch c body _ => c.Writable ∧ body.Writable
  | .loop body _ => body.Writable
  | .input n _ => IsName n
  | .declare n e _ => IsName n ∧ e.Writable
  | .exit _ => True
  | .stray _ _ => False

def Stmt.WritableAll : List Stmt → Prop
  | [] => True
  | s :: ss => s.Writable ∧ Stmt.WritableAll ss

end

theorem Operator.writable_kind {op : Operator} (h : op ∈ Operator.all) : op.kind.Writable := by
  cases op with
  | unknown shown => simp [Operator.all] at h
  | _ => trivial

theorem Kind.writable_enclosed {ks : List Kind} (hks : ∀ k ∈ ks, k.Writable) (parens : Bool) :
    ∀ k ∈ Kind.enclosed ks parens, k.Writable := by
  intro k hk
  unfold Kind.enclosed at hk
  split at hk
  · rcases List.mem_append.mp hk with hk | hk
    · rcases List.mem_cons.mp hk with rfl | hk
      · trivial
      · exact hks k hk
    · obtain rfl := List.mem_singleton.mp hk
      trivial
  · exact hks k hk

/-- All tokens of an expression that can be written can be written. -/
theorem Expr.writable_kinds (style : Style) {e : Expr} (he : e.Writable) :
    ∀ k ∈ e.kinds style, k.Writable := by
  induction e with
  | literal v span =>
    cases v with
    | number x => exact List.forall_mem_singleton.mpr he
    | text s => exact List.forall_mem_singleton.mpr he
  | name n span => exact List.forall_mem_singleton.mpr he
  | assign n v span ih =>
    have hvalue := Kind.writable_enclosed (ih he.2) (style.wraps v)
    exact List.forall_mem_cons.mpr ⟨he.1, List.forall_mem_cons.mpr ⟨trivial, hvalue⟩⟩
  | binary l op r span ihl ihr =>
    have hl := Kind.writable_enclosed (ihl he.1) (style.encloses l)
    have hr := Kind.writable_enclosed (ihr he.2.2) (style.encloses r)
    exact List.forall_mem_append.mpr
      ⟨hl, List.forall_mem_cons.mpr ⟨Operator.writable_kind he.2.1, hr⟩⟩
  | stray label fields => exact he.elim

theorem Style.writable_semicolon (style : Style) (stmt : Stmt) :
    ∀ k ∈ style.semicolon stmt, k.Writable := by
  intro k hk
  unfold Style.semicolon at hk
  split at hk
  · obtain rfl := List.mem_singleton.mp hk
    trivial
  · cases hk

theorem Kind.writable_sign (sign : Sign) : ∀ k ∈ [Kind.sign sign], k.Writable :=
  List.forall_mem_singleton.mpr trivial

mutual

/-- All tokens of a statement that can be written can be written. -/
theorem Stmt.writable_kinds (style : Style) :
    ∀ {stmt : Stmt}, stmt.Writable → ∀ k ∈ stmt.kinds style, k.Writable
  | .block body span, h => by
    have hbody := Stmt.writable_kindsAll style h
    have hsemi := style.writable_semicolon (.block body span)
    exact List.forall_mem_append.mpr ⟨List.forall_mem_cons.mpr ⟨trivial, hbody⟩,
      List.forall_mem_cons.mpr ⟨trivial, hsemi⟩⟩
  | .express e span, h =>
    List.forall_mem_append.mpr ⟨Expr.writable_kinds style h, Kind.writable_sign .semicolon⟩
  | .branch c body span, h => by
    have hc := Expr.writable_kinds style h.1
    have hbody := Stmt.writable_kinds style h.2
    have hsemi := style.writable_semicolon (.branch c body span)
    simp only [Stmt.kinds, List.forall_mem_append, List.forall_mem_cons]
    exact ⟨⟨⟨trivial, trivial, hc⟩, trivial, hbody⟩, hsemi⟩
  | .loop body span, h => by
    have hwritable : body.Writable := h
    have hbody := Stmt.writable_kinds style hwritable
    have hsemi := style.writable_semicolon (.loop body span)
    exact List.forall_mem_append.mpr ⟨List.forall_mem_cons.mpr ⟨trivial, hbody⟩, hsemi⟩
  | .speak e span, h => by
    have he := Expr.writable_kinds style h
    exact List.forall_mem_append.mpr
      ⟨List.forall_mem_cons.mpr ⟨trivial, he⟩, Kind.writable_sign .semicolon⟩
  | .input n span, h =>
    List.forall_mem_cons.mpr ⟨trivial,
      List.forall_mem_cons.mpr ⟨h, Kind.writable_sign .semicolon⟩⟩
  | .declare n e span, h => by
    have he := Expr.writable_kinds style h.2
    refine List.forall_mem_append.mpr ⟨?_, Kind.writable_sign .semicolon⟩
    simp only [List.forall_mem_cons]
    exact ⟨trivial, h.1, trivial, he⟩
  | .exit span, _ => List.forall_mem_cons.mpr ⟨trivial, Kind.writable_sign .semicolon⟩
  | .stray label fields, h => h.elim

theorem Stmt.writable_kindsAll (style : Style) :
    ∀ {p : List Stmt}, Stmt.WritableAll p → ∀ k ∈ Stmt.kindsAll style p, k.Writable
  | [], _ => List.forall_mem_nil _
  | stmt :: rest, h => by
    have hstmt := Stmt.writable_kinds style h.1
    have hrest := Stmt.writable_kindsAll style h.2
    exact List.forall_mem_append.mpr ⟨hstmt, hrest⟩

end

/-! ## Reading back -/

/-- A chain of two operands. -/
theorem Grammar.Chain.pair {operand : Phrase Expr} {operator : Kind → Operator → Prop}
    {ls rs : List Kind} {k : Kind} {op : Operator} {l r : Expr} (hl : operand ls l)
    (hk : operator k op) (hr : operand rs r) :
    Chain operand operator (ls ++ k :: rs) (.binary l op r none) :=
  .next (.first hl) hk hr

/-- An operation between two operands of the tightest kind. -/
theorem Grammar.Comparison.binary {inner : Phrase Expr} {op : Operator} (hop : op ∈ Operator.all)
    {ls rs : List Kind} {l r : Expr} (hl : Primary inner ls l) (hr : Primary inner rs r) :
    Comparison inner (ls ++ op.kind :: rs) (.binary l op r none) := by
  have hterm {ks : List Kind} {e : Expr} (h : Primary inner ks e) : Term inner ks e := .first h
  have hsum {ks : List Kind} {e : Expr} (h : Primary inner ks e) : Sum inner ks e :=
    .first (hterm h)
  cases op with
  | times => exact .first (.first (.pair hl .times hr))
  | dividedBy => exact .first (.first (.pair hl .dividedBy hr))
  | plus => exact .first (.pair (hterm hl) .plus (hterm hr))
  | minus => exact .first (.pair (hterm hl) .minus (hterm hr))
  | equals => exact .pair (hsum hl) .equals (hsum hr)
  | unknown shown => simp [Operator.all] at hop

/-- What holds a level further out than `a` levels holds of every greater number of levels. -/
theorem Grammar.of_level {P : Nat → Prop} {a : Nat} (h : ∀ levels, a ≤ levels → P (levels + 1))
    (levels : Nat) (hlevels : 1 + a ≤ levels) : P levels := by
  obtain ⟨levels, rfl⟩ : ∃ m, levels = m + 1 := ⟨levels - 1, by omega⟩
  exact h levels (by omega)

/-- Inside enough levels, the tokens of the expression derive it. -/
def Expr.Derived (style : Style) (e : Expr) : Prop :=
  ∀ levels, e.levels style ≤ levels → Expression levels (e.kinds style) e.erase

/-- A primary expression is an expression. -/
theorem Grammar.Primary.expression {levels : Nat} {ks : List Kind} {e : Expr}
    (h : Primary (Expression levels) ks e) : Expression (levels + 1) ks e :=
  .comparison (.first (.first (.first h)))

/-- An operand is a primary expression: in parentheses, or because it is no compound. -/
theorem Expr.Derived.operand {style : Style} {e : Expr} (h : e.Derived style) (he : e.Writable)
    {levels : Nat} (hlevels : (if style.encloses e then e.levels style else 0) ≤ levels) :
    Primary (Expression levels) (Kind.enclosed (e.kinds style) (style.encloses e)) e.erase := by
  cases hparens : style.encloses e with
  | true =>
    rw [hparens] at hlevels
    exact .parens (h levels hlevels)
  | false =>
    cases e with
    | literal v span =>
      cases v with
      | number x => exact .number x
      | text s => exact .text s
    | name n span => exact .name n
    | assign n v span => cases hparens
    | binary l op r span => cases hparens
    | stray label fields => exact he.elim

/-- **The tokens of an expression derive it.** -/
theorem Expr.derives_kinds (style : Style) {e : Expr} (he : e.Writable) : e.Derived style := by
  induction e with
  | literal v span =>
    cases v with
    | number x => exact of_level (a := 0) fun levels _ => (Primary.number x).expression
    | text s => exact of_level (a := 0) fun levels _ => (Primary.text s).expression
  | name n span => exact of_level (a := 0) fun levels _ => (Primary.name n).expression
  | assign n v span ih =>
    refine of_level fun levels hlevels => .assign n ?_
    unfold Kind.enclosed
    split
    · rename_i hwraps
      rw [if_pos hwraps] at hlevels
      -- the parentheses are one more level
      revert levels
      refine of_level fun levels hlevels => ?_
      exact (Primary.parens (ih he.2 levels hlevels)).expression
    · rename_i hwraps
      rw [if_neg hwraps] at hlevels
      exact ih he.2 levels hlevels
  | binary l op r span ihl ihr =>
    refine of_level fun levels hlevels => ?_
    have hl := (ihl he.1).operand he.1 (Nat.le_trans (Nat.le_max_left _ _) hlevels)
    have hr := (ihr he.2.2).operand he.2.2 (Nat.le_trans (Nat.le_max_right _ _) hlevels)
    exact .comparison (.binary he.2.1 hl hr)
  | stray label fields => exact he.elim

theorem Style.maybe_semicolon (style : Style) (stmt : Stmt) :
    MaybeSemicolon (style.semicolon stmt) := by
  unfold Style.semicolon
  split
  · exact .present
  · exact .absent

mutual

/-- **The tokens of a statement derive it.** -/
theorem Stmt.derives_kinds (style : Style) : ∀ {stmt : Stmt}, stmt.Writable →
    ∀ levels, stmt.levels style ≤ levels → Statement levels (stmt.kinds style) stmt.erase
  | .block body span, h => by
    refine of_level fun levels hlevels => ?_
    have hbody := Stmt.derives_kindsAll style h levels hlevels
    exact .block hbody (style.maybe_semicolon (.block body span))
  | .express e span, h => by
    refine of_level fun levels hlevels => ?_
    exact .express (Expr.derives_kinds style h levels hlevels)
  | .branch c body span, h => by
    refine of_level fun levels hlevels => ?_
    have hc := Expr.derives_kinds style h.1 levels (Nat.le_trans (Nat.le_max_left _ _) hlevels)
    have hbody := Stmt.derives_kinds style h.2 levels (Nat.le_trans (Nat.le_max_right _ _) hlevels)
    exact .branch hc hbody (style.maybe_semicolon (.branch c body span))
  | .loop body span, h => by
    refine of_level fun levels hlevels => ?_
    have hwritable : body.Writable := h
    have hbody := Stmt.derives_kinds style hwritable levels hlevels
    exact .loop hbody (style.maybe_semicolon (.loop body span))
  | .speak e span, h => by
    refine of_level fun levels hlevels => ?_
    exact .speak (Expr.derives_kinds style h levels hlevels)
  | .input n span, _ => by
    refine of_level (a := 0) fun levels _ => ?_
    exact .input n
  | .declare n e span, h => by
    refine of_level fun levels hlevels => ?_
    exact .declare n (Expr.derives_kinds style h.2 levels hlevels)
  | .exit span, _ => by
    refine of_level (a := 0) fun levels _ => ?_
    exact .exit
  | .stray label fields, h => by
    exact h.elim

theorem Stmt.derives_kindsAll (style : Style) : ∀ {p : List Stmt}, Stmt.WritableAll p →
    ∀ levels, Stmt.levelsAll style p ≤ levels →
      Many (Statement levels) (Stmt.kindsAll style p) (Stmt.eraseAll p)
  | [], _, _, _ => .nil
  | stmt :: rest, h, levels, hlevels => by
    have hstmt := Stmt.derives_kinds style h.1 levels (Nat.le_trans (Nat.le_max_left _ _) hlevels)
    have hrest := Stmt.derives_kindsAll style h.2 levels
      (Nat.le_trans (Nat.le_max_right _ _) hlevels)
    exact .cons hstmt hrest

end

namespace Program

/-- **A program is read back from its text**, in every style, if it can be written and the text is
inside the limit on levels. -/
theorem parse_written (style : Style) {limits : Limits} {p : Program} (hp : Stmt.WritableAll p)
    (hlevels : Stmt.levelsAll style p ≤ limits.nesting) (file : Option String) :
    ∃ q, Script.parse { text := p.written style, file } limits = .ok q ∧ q.erase = p.erase := by
  let script : Script := { text := p.written style, file }
  have hwritable := Stmt.writable_kindsAll style hp
  have hkinds : Parse.kinds script.scan = Stmt.kindsAll style p :=
    Script.kinds_scan_spaced hwritable file
  have hgood : ∀ k ∈ Parse.kinds script.scan, k.isBad = false := by
    intro k hk
    rw [hkinds] at hk
    exact (hwritable k hk).isBad
  have hderives : Grammar.Program limits.nesting (Parse.kinds script.scan) p.erase := by
    rw [hkinds]
    exact Stmt.derives_kindsAll style hp _ hlevels
  obtain ⟨q, hq, herase⟩ :=
    (Parse.program_eq_ok_iff limits.nesting (some script.text) script.scan script.finish
      p.erase).mpr hderives
  exact ⟨q, (Script.parse_of_good hgood).trans hq, herase⟩

/-- All parentheses around operations and assignments, and all semicolons. -/
def fullStyle : Style := ⟨Expr.isCompound, fun _ => true⟩

/-- A sum of the lines of the input, starting at a fraction, up to a line with a number sign. -/
def sumSample : Program :=
  [.declare "total" (.literal (.number 1.5) none) none,
    .loop (.block [.input "line" none,
      .branch (.binary (.name "line" none) .equals (.literal (.text "stop # now") none) none)
        (.exit none) none,
      .express (.assign "total" (.binary (.binary (.name "total" none) .plus (.name "line" none)
        none) .times (.literal (.number 0.25) none) none) none) none,
      .speak (.name "total" none) none] none) none]

theorem parse_written_sumSample :
    Stmt.WritableAll sumSample ∧ Stmt.levelsAll fullStyle sumSample ≤ Limits.small.nesting ∧
      ∃ q, Script.parse { text := sumSample.written fullStyle } .small = .ok q ∧
        q.erase = sumSample.erase := by
  have htotal : IsName "total" :=
    ⟨⟨'t', rfl, rfl⟩, List.all_eq_true.mp rfl, by intro k; cases k <;> decide⟩
  have hline : IsName "line" :=
    ⟨⟨'l', rfl, rfl⟩, List.all_eq_true.mp rfl, by intro k; cases k <;> decide⟩
  have hstart : Number.IsPlain 1.5 := ⟨of_decide_eq_true rfl, rfl⟩
  have hquarter : Number.IsPlain 0.25 := ⟨of_decide_eq_true rfl, rfl⟩
  have hquote : Text.Quoted.doubleQuote ∉ "stop # now".toList := by decide
  have hplus : Operator.plus ∈ Operator.all := by decide
  have htimes : Operator.times ∈ Operator.all := by decide
  have hequals : Operator.equals ∈ Operator.all := by decide
  have hwritable : Stmt.WritableAll sumSample :=
    ⟨⟨htotal, hstart⟩, ⟨hline, ⟨⟨hline, hequals, hquote⟩, trivial⟩,
      ⟨htotal, ⟨htotal, hplus, hline⟩, htimes, hquarter⟩, htotal, trivial⟩, trivial⟩
  have hlevels : Stmt.levelsAll fullStyle sumSample ≤ Limits.small.nesting := by decide
  exact ⟨hwritable, hlevels, parse_written fullStyle hwritable hlevels none⟩

end Program

end DialogueScript
