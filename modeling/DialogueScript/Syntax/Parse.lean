import DialogueScript.Diagnostic
import DialogueScript.Limits
import DialogueScript.Syntax
import DialogueScript.Token.Scan

/-!
# From tokens to programs

Model of `Parser`, `parse` and `parse_source`, and of `Lexer.tokenize`.

A program is read from left to right.  Every construct looks at the next token, or the next two
where a name may begin an assignment.  From loose to tight the levels of an expression are
assignment, equality, addition, multiplication; the last three group to the left.

* `Parse.expression`, `Parse.statement` — one expression or statement and what follows it, inside
  a given number of levels of nesting;
* `Program.ofTokens` — a whole program from a list of tokens that has an end;
* `Script.tokens`, `Script.parse` — the tokens and the program of a script.
-/

namespace DialogueScript

namespace Parse

/-- What stays the same while one program is read. -/
structure Context where
  /-- The end of the text, as a token. -/
  finish : Token
  /-- The text, for quoting lines in errors. -/
  source : Option String
  /-- At least the number of tokens. -/
  bound : Nat

/-- The tokens still to be read, and where the last one that was read ends. -/
structure State where
  rest : List Token
  last : Location

/-- A step of reading: what was read, and what is left. -/
abbrev Reader (α : Type) := State → Except Failure (α × State)

/-- The source line on which a token starts.  Model of `Parser._source_line`. -/
def Context.lineOf (ctx : Context) (t : Token) : Option String :=
  ctx.source.bind fun s => Text.excerptLine? s t.span.start.line

/-- The failure of a reader that wanted something else.  Model of `Parser._error`. -/
def Context.expected (ctx : Context) (what : String) (st : State) : Failure :=
  match st.rest with
  | [] => ⟨.unexpectedEnd what, some ctx.finish.span, none⟩
  | t :: _ => ⟨.unexpectedToken what t.text, some t.span, ctx.lineOf t⟩

def State.next (ctx : Context) (st : State) : Token := st.rest.headD ctx.finish

/-- The failure of a program with too many levels. -/
def Context.tooDeep (ctx : Context) (st : State) : Failure :=
  let t := st.next ctx
  ⟨.parseTooDeep, some t.span, ctx.lineOf t⟩

/-- The state after reading a token. -/
def State.after (t : Token) (rest : List Token) : State := ⟨rest, t.span.stop⟩

/-- The span from a first token to the last one read.  Model of `Parser._span_from`. -/
def State.spanFrom (st : State) (first : Token) : Option Span :=
  some ⟨first.span.file, first.span.start, st.last⟩

/-- Reads one sign.  Model of `Parser._consume`. -/
def sign (ctx : Context) (s : Sign) (what : String) (st : State) : Except Failure State :=
  match st.rest with
  | t :: rest => if t.kind = .sign s then .ok (.after t rest) else .error (ctx.expected what st)
  | [] => .error (ctx.expected what st)

/-- Leaves out a semicolon, if there is one. -/
def skipSemicolon (st : State) : State :=
  match st.rest with
  | t :: rest => if t.kind = .sign .semicolon then .after t rest else st
  | [] => st

def semicolon (ctx : Context) (st : State) : Except Failure State := sign ctx .semicolon "';'" st

/-- Reads the name of a variable. -/
def variableName (ctx : Context) (st : State) : Except Failure (String × State) :=
  match st.rest with
  | t :: rest =>
    match t.kind with
    | .name n => .ok (n, .after t rest)
    | _ => .error (ctx.expected "variable name" st)
  | [] => .error (ctx.expected "variable name" st)

/-- A literal, a name, or an expression in parentheses, which leave no trace in the tree.  Model of
`Parser._parse_primary`. -/
def primary (ctx : Context) (inner : Reader Expr) (st : State) : Except Failure (Expr × State) :=
  match st.rest with
  | t :: rest =>
    match t.kind with
    | .number x => .ok (.literal (.number x) (some t.span), .after t rest)
    | .text s => .ok (.literal (.text s) (some t.span), .after t rest)
    | .name n => .ok (.name n (some t.span), .after t rest)
    | .sign .openParen => do
      let (e, st) ← inner (.after t rest)
      let st ← sign ctx .closeParen "')'" st
      return (e, st)
    | _ => .error (ctx.expected "expression" st)
  | [] => .error (ctx.expected "expression" st)

/-- The operators and operands after a first operand, grouped to the left.  Every round reads two
tokens or more, so the bound is never used up. -/
def chainRest (operand : Reader Expr) (operator : Kind → Option Operator) (first : Token) :
    Nat → Expr → Reader Expr
  | 0, left, st => .ok (left, st)
  | bound + 1, left, st =>
    match st.rest with
    | [] => .ok (left, st)
    | t :: rest =>
      match operator t.kind with
      | none => .ok (left, st)
      | some op =>
        match operand (.after t rest) with
        | .error f => .error f
        | .ok (right, st) =>
          chainRest operand operator first bound (.binary left op right (st.spanFrom first)) st

/-- Model of `Parser._parse_binary_level`. -/
def chain (ctx : Context) (operand : Reader Expr) (operator : Kind → Option Operator)
    (st : State) : Except Failure (Expr × State) :=
  match operand st with
  | .error f => .error f
  | .ok (left, st') => chainRest operand operator (st.next ctx) ctx.bound left st'

/-- The operators of `Parser._parse_term`. -/
def multiplication : Kind → Option Operator
  | .sign .star => some .times
  | .sign .slash => some .dividedBy
  | _ => none

/-- The operators of `Parser._parse_additive`. -/
def addition : Kind → Option Operator
  | .sign .plus => some .plus
  | .sign .minus => some .minus
  | _ => none

/-- The operators of `Parser._parse_equality`. -/
def equality : Kind → Option Operator
  | .sign .equals => some .equals
  | _ => none

/-- The three levels that group to the left. -/
def comparison (ctx : Context) (inner : Reader Expr) : Reader Expr :=
  chain ctx (chain ctx (chain ctx (primary ctx inner) multiplication) addition) equality

/-- An expression inside `depth` levels.  Model of `Parser._parse_expression`. -/
def expression (ctx : Context) : Nat → Reader Expr
  | 0, st => .error (ctx.tooDeep st)
  | depth + 1, st =>
    match st.rest with
    | t :: a :: rest =>
      match t.kind, a.kind with
      | .name n, .sign .assign =>
        match expression ctx depth (.after a rest) with
        | .error f => .error f
        | .ok (value, st) => .ok (.assign n value (st.spanFrom t), st)
      | _, _ => comparison ctx (expression ctx depth) st
    | _ => comparison ctx (expression ctx depth) st

/-- Statements up to the closing brace.  Every round reads a token, so the bound is never used up.
Model of `Parser._parse_block`. -/
def blockRest (ctx : Context) (item : Reader Stmt) : Nat → Reader (List Stmt)
  | 0, st => .ok ([], st)
  | bound + 1, st =>
    match st.rest with
    | [] => .error (ctx.expected "'\x7d'" st)
    | t :: rest =>
      if t.kind = .sign .closeBrace then .ok ([], .after t rest)
      else
        match item st with
        | .error f => .error f
        | .ok (s, st) =>
          match blockRest ctx item bound st with
          | .error f => .error f
          | .ok (ss, st) => .ok (s :: ss, st)

/-- A statement inside `depth` levels.  A semicolon may follow a block, a branch or a loop and
belongs to it.  Model of `Parser._parse_statement`. -/
def statement (ctx : Context) : Nat → Reader Stmt
  | 0, st => .error (ctx.tooDeep st)
  | depth + 1, st =>
    match st.rest with
    | [] => .error (ctx.expected "expression" st)
    | t :: rest =>
      match t.kind with
      | .keyword .declare => do
        let (n, st) ← variableName ctx (.after t rest)
        let st ← sign ctx .assign "'='" st
        let (e, st) ← expression ctx depth st
        let st ← semicolon ctx st
        return (.declare n e (st.spanFrom t), st)
      | .keyword .speak => do
        let (e, st) ← expression ctx depth (.after t rest)
        let st ← semicolon ctx st
        return (.speak e (st.spanFrom t), st)
      | .keyword .input => do
        let (n, st) ← variableName ctx (.after t rest)
        let st ← semicolon ctx st
        return (.input n (st.spanFrom t), st)
      | .keyword .branch => do
        let st ← sign ctx .openParen "'('" (.after t rest)
        let (c, st) ← expression ctx depth st
        let st ← sign ctx .closeParen "')'" st
        let (body, st) ← statement ctx depth st
        let st := skipSemicolon st
        return (.branch c body (st.spanFrom t), st)
      | .keyword .loop => do
        let (body, st) ← statement ctx depth (.after t rest)
        let st := skipSemicolon st
        return (.loop body (st.spanFrom t), st)
      | .keyword .exit => do
        let st ← semicolon ctx (.after t rest)
        return (.exit (st.spanFrom t), st)
      | .sign .openBrace => do
        let (body, st) ← blockRest ctx (statement ctx depth) ctx.bound (.after t rest)
        return (.block body (st.spanFrom t), skipSemicolon st)
      | .keyword .function => .error ⟨.functionDeclared, some t.span, ctx.lineOf t⟩
      | _ => do
        let (e, st) ← expression ctx depth st
        let st ← semicolon ctx st
        return (.express e (st.spanFrom t), st)

/-- Statements up to the end of the text.  Model of `Parser.parse_program`. -/
def statements (item : Reader Stmt) : Nat → State → Except Failure (List Stmt)
  | 0, _ => .ok []
  | bound + 1, st =>
    match st.rest with
    | [] => .ok []
    | _ :: _ =>
      match item st with
      | .error f => .error f
      | .ok (s, st) =>
        match statements item bound st with
        | .error f => .error f
        | .ok ss => .ok (s :: ss)

/-- The program that the tokens before `finish` make up, with so many levels of nesting at most. -/
def program (nesting : Nat) (source : Option String) (body : List Token) (finish : Token) :
    Except Failure Program :=
  let ctx : Context := ⟨finish, source, body.length + 1⟩
  statements (statement ctx nesting) ctx.bound ⟨body, {}⟩

end Parse

/-- Why a list of tokens is no program. -/
inductive Program.Refusal where
  /-- The list does not end with the end of a text. -/
  | unfinished
  | failure (f : Failure)
  deriving DecidableEq

/-- The program of a list of tokens; what stands behind the first end of a text is ignored.  Model
of `parse`. -/
def Program.ofTokens (limits : Limits) (tokens : List Token) (source : Option String) :
    Except Program.Refusal Program :=
  match tokens.getLast?, tokens.find? (·.kind == .finish) with
  | some last, some finish =>
    if last.kind = .finish then
      (Parse.program limits.nesting source (tokens.takeWhile (·.kind != .finish)) finish).mapError
        .failure
    else .error .unfinished
  | _, _ => .error .unfinished

/-- The failure at a piece of a script that is no token. -/
def Script.badToken (s : Script) (t : Token) : Failure :=
  ⟨.badToken t.lexeme, some t.span, Text.excerptLine? s.text t.span.start.line⟩

/-- The tokens of a script and its end, if every piece is a token.  Model of `Lexer.tokenize`. -/
def Script.tokens (s : Script) : Except Failure (List Token) :=
  let ts := s.scan
  match ts.find? (·.kind.isBad) with
  | some t => .error (s.badToken t)
  | none => .ok (ts ++ [s.finish])

/-- Model of `parse_source`. -/
def Script.parse (s : Script) (limits : Limits) : Except Failure Program :=
  let ts := s.scan
  match ts.find? (·.kind.isBad) with
  | some t => .error (s.badToken t)
  | none => Parse.program limits.nesting (some s.text) ts s.finish

end DialogueScript
