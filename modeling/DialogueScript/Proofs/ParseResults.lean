import DialogueScript.Proofs.Readings
import DialogueScript.Proofs.Spans

/-!
# What reading gives

Readers keep every property of locations: if the tokens lie between locations with the property, so
do the nodes of the tree that is read, or the failure that is reported.

* `Span.Marked` — spans whose locations have the property;
* `Context.Refusal` — a failure of parsing at a marked span, with the source line there or none;
* `Gives` — a result that is a success with some property, or a refusal;
* `keepsMarked` — readers make marked spans and refusals of tokens with marked spans;
* `program_gives`, `Script.parse_spanned`, `Script.parse_refers` — so do whole programs and scripts.
-/

namespace DialogueScript

/-- The span goes from a location with the property to another one. -/
def Span.Marked (A : Location → Prop) (s : Span) : Prop := A s.start ∧ A s.stop

namespace Parse

variable {α : Type} {A : Location → Prop} {ctx : Context}

/-- A failure of parsing at a marked span, which quotes the source line there or none. -/
structure Context.Refusal (ctx : Context) (A : Location → Prop) (f : Failure) : Prop where
  kind : f.fault.kind = .parse
  place : ∃ s, f.span = some s ∧ s.Marked A ∧ (f.sourceLine = none ∨
    f.sourceLine = ctx.source.bind fun text => Text.excerptLine? text s.start.line)

/-- A success with a property, or a refusal. -/
def Gives (ctx : Context) (A : Location → Prop) (Q : α → Prop) : Except Failure α → Prop
  | .ok a => Q a
  | .error f => ctx.Refusal A f

/-- The spans of nodes and failures begin and end where spans of tokens do. -/
theorem keepsMarked (hend : ctx.finish.span.Marked A) :
    Keeps ctx (fun t => t.span.Marked A) A (ctx.Refusal A) (Expr.Spanned (Span.Marked A))
      (Stmt.Spanned (Span.Marked A)) where
  stop ht := ht.2
  finish := hend
  unexpectedToken _ _ ht := ⟨rfl, _, rfl, ht, .inr rfl⟩
  unexpectedEnd _ := ⟨rfl, _, rfl, hend, .inl rfl⟩
  function ht _ := ⟨rfl, _, rfl, ht, .inr rfl⟩
  tooDeep ht := ⟨rfl, _, rfl, ht, .inr rfl⟩
  number ht _ := .literal ht
  text ht _ := .literal ht
  name ht _ := .name ht
  assign ht _ hl hv := .assign hv ⟨ht.1, hl⟩
  binary ht hl ha hb := .binary ha hb ⟨ht.1, hl⟩
  declare ht hl he := .declare he ⟨ht.1, hl⟩
  speak ht hl he := .speak he ⟨ht.1, hl⟩
  input ht hl := .input ⟨ht.1, hl⟩
  branch ht hl hc hbody := .branch hc hbody ⟨ht.1, hl⟩
  loop ht hl hbody := .loop hbody ⟨ht.1, hl⟩
  exit ht hl := .exit ⟨ht.1, hl⟩
  block ht hl hbody := .block hbody ⟨ht.1, hl⟩
  express ht hl he := .express he ⟨ht.1, hl⟩

end Parse

/-- Reading a program from marked tokens gives marked trees, or a refusal. -/
theorem Parse.program_gives {A : Location → Prop} {nesting : Nat} {source : Option String}
    {body : List Token} {finish : Token} (hstart : A {}) (hbody : ∀ t ∈ body, t.span.Marked A)
    (hend : finish.span.Marked A) :
    Gives ⟨finish, source, body.length + 1⟩ A (fun p => ∀ s ∈ p, s.Spanned (Span.Marked A))
      (program nesting source body finish) := by
  have hkeeps := @keepsMarked A ⟨finish, source, body.length + 1⟩ hend
  have hprogram := hkeeps.program nesting hbody hstart
  cases hread : program nesting source body finish with
  | error f =>
    rw [hread] at hprogram
    exact hprogram
  | ok p =>
    rw [hread] at hprogram
    exact hprogram

/-- The failure is at a marked span of a text and quotes the line there or none. -/
def Failure.Refers (text : String) (A : Location → Prop) (f : Failure) : Prop :=
  ∃ s, f.span = some s ∧ s.Marked A ∧
    (f.sourceLine = none ∨ f.sourceLine = Text.excerptLine? text s.start.line)

namespace Script

variable {A : Location → Prop} {s : Script} {limits : Limits}

theorem parse_spanned (hstart : A {}) (hscan : ∀ t ∈ s.scan, t.span.Marked A)
    (hend : s.finish.span.Marked A) {p : Program} (h : s.parse limits = .ok p) :
    ∀ stmt ∈ p, stmt.Spanned (Span.Marked A) := by
  have hgives :=
    @Parse.program_gives A limits.nesting (some s.text) s.scan s.finish hstart hscan hend
  simp only [parse] at h
  split at h
  · cases h
  · rw [h] at hgives
    exact hgives

theorem parse_refers (hstart : A {}) (hscan : ∀ t ∈ s.scan, t.span.Marked A)
    (hend : s.finish.span.Marked A) {f : Failure} (h : s.parse limits = .error f) :
    f.Refers s.text A := by
  have hgives :=
    @Parse.program_gives A limits.nesting (some s.text) s.scan s.finish hstart hscan hend
  simp only [parse] at h
  split at h
  · rename_i t ht
    cases h
    exact ⟨t.span, rfl, hscan t (List.mem_of_find?_eq_some ht), .inr rfl⟩
  · rw [h] at hgives
    exact hgives.place

end Script

/-- Reading a program fails with failures of parsing only. -/
theorem Parse.program_error_kind {nesting : Nat} {source : Option String} {body : List Token}
    {finish : Token} {f : Failure} (h : program nesting source body finish = .error f) :
    f.fault.kind = .parse := by
  have hgives := @program_gives (fun _ => True) nesting source body finish trivial
    (fun _ _ => ⟨trivial, trivial⟩) ⟨trivial, trivial⟩
  rw [h] at hgives
  exact hgives.kind

end DialogueScript
