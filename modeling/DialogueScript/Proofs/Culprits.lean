import DialogueScript.Proofs.Failings
import DialogueScript.Proofs.Origins
import DialogueScript.Proofs.Scoping
import DialogueScript.Proofs.Viability

/-!
# What diagnostics point at

A diagnostic has a span, and the span is that of the culprit: the piece of the text that is no
token, the token with which no program goes on, the end of a text that stops too early, or the
expression that fails by itself when the run comes to it.

* `Script.TextCulprit` — what is at fault where a script cannot be read;
* `Script.Reaches`, `Script.Needs` — the statements that a run comes to, and the expressions whose
  values it needs;
* `Script.RunCulprit` — what is at fault where a run fails;
* `Comes.of`, `Visits.of` — a run stays in its program;
* `Script.textCulprit_of_parse`, `Script.runCulprit_of_execute` — the culprits of either kind;
* `Script.run_culprits` — **every diagnostic of a run points at its culprit**.
-/

namespace DialogueScript

/-! ## Culprits -/

namespace Script

open Program

/-- What is at fault where a script cannot be read, and where it stands. -/
inductive TextCulprit (s : Script) : Fault → Span → Prop
  /-- The first piece of the text that is no token. -/
  | badToken {pre post : List Token} {t : Token} (hscan : s.scan = pre ++ t :: post)
      (hpre : ∀ u ∈ pre, u.kind.isBad = false) (ht : t.kind.isBad = true)
      (hslice : s.slice t.span = t.lexeme) : TextCulprit s (.badToken t.lexeme) t.span
  /-- The first token with which no program goes on. -/
  | unexpectedToken (what : String) {pre post : List Token} {t : Token}
      (hscan : s.scan = pre ++ t :: post) (hpre : Viable pre) (ht : ¬ Viable (pre ++ [t]))
      (hslice : s.slice t.span = t.lexeme) : TextCulprit s (.unexpectedToken what t.text) t.span
  /-- The word for functions, with which no program goes on, in any capitals. -/
  | functionDeclared {pre post : List Token} {t : Token} (hscan : s.scan = pre ++ t :: post)
      (hpre : Viable pre) (ht : t.kind = .keyword .function)
      (hslice : Text.fold (s.slice t.span).toList = ['f', 'n']) :
      TextCulprit s .functionDeclared t.span
  /-- The empty end of a text that could go on. -/
  | unexpectedEnd (what : String) {span : Span} (hscan : Viable s.scan)
      (hend : span.start.offset = s.text.toList.length) (hempty : span.stop = span.start)
      (hslice : s.slice span = "") : TextCulprit s (.unexpectedEnd what) span
  /-- The token, or the end, at which there are too many levels. -/
  | parseTooDeep {t : Token} (ht : t ∈ s.scan ++ [s.finish]) : TextCulprit s .parseTooDeep t.span

/-- The run of a script comes to a statement in a session, inside a number of levels. -/
def Reaches (s : Script) (limits : Limits) (settings : Settings) (input : String) (depth : Nat)
    (stmt : Stmt) (u : Session) : Prop :=
  ∃ p root t, (s.withSettings settings).parse limits = .ok p ∧
    Executes settings.policy (some s.text) limits p [] (.start settings input) root t ∧
    Comes limits.rounds limits.depth root t depth stmt u

/-- The run of a script needs the value of an expression. -/
def Needs (s : Script) (limits : Limits) (settings : Settings) (input : String) (depth : Nat)
    (e : Expr) (u : Session) : Prop :=
  ∃ levels stmt whole, s.Reaches limits settings input (levels + 1) stmt u ∧
    stmt.sought? = some whole ∧ Visits u.env.lookup levels whole depth e

/-- What is at fault where a run fails, and where it stands. -/
inductive RunCulprit (s : Script) (limits : Limits) (settings : Settings) (input : String) :
    Fault → Span → Prop
  /-- A name that is read and not bound. -/
  | unboundName {depth : Nat} {n : String} {span : Span} {u : Session}
      (hneeds : s.Needs limits settings input (depth + 1) (.name n (some span)) u)
      (hn : u.env.lookup n = none) (hslice : s.slice span = n) :
      RunCulprit s limits settings input (.unbound n) span
  /-- An assignment to a name that is not bound. -/
  | unboundAssignment {depth : Nat} {stmt : Stmt} {n rest : String} {v : Expr} {span : Span}
      {u : Session} {x : Value} (hreaches : s.Reaches limits settings input (depth + 1) stmt u)
      (he : stmt.effect? = some (.assign n v (some span)))
      (hv : valueOf u.env.lookup depth v = .ok x) (hn : u.env.assign? n x = none)
      (hslice : s.slice span = n ++ rest) : RunCulprit s limits settings input (.unbound n) span
  /-- An operation whose operator refuses the values of its operands. -/
  | operation {depth : Nat} {l r : Expr} {op : Operator} {span : Span} {u : Session} {v w : Value}
      {fault : Fault}
      (hneeds : s.Needs limits settings input (depth + 1) (.binary l op r (some span)) u)
      (hl : valueOf u.env.lookup (depth + 1) l = .ok v) (hr : valueOf u.env.lookup depth r = .ok w)
      (hop : op.Refuses v w fault) : RunCulprit s limits settings input fault span
  /-- A condition whose value is no truth value. -/
  | condition {depth : Nat} {c : Expr} {body : Stmt} {whole : Option Span} {span : Span}
      {u t : Session} {v : Value}
      (hreaches : s.Reaches limits settings input (depth + 1) (.branch c body whole) u)
      (hspan : c.span = some span) (hc : evaluate depth c u = (.ok v, t))
      (htrue : v ≠ .text "True") (hfalse : v ≠ .text "False") :
      RunCulprit s limits settings input (.notBoolean v.described) span
  /-- An assignment where a value is needed. -/
  | chainedAssignment {depth : Nat} {n rest : String} {v : Expr} {span : Span} {u : Session}
      (hneeds : s.Needs limits settings input (depth + 1) (.assign n v (some span)) u)
      (hslice : s.slice span = n ++ rest) :
      RunCulprit s limits settings input (.chainedAssignment n) span
  /-- A statement of the program with too many levels. -/
  | tooDeep {stmt : Stmt} {span : Span} {u : Session}
      (hreaches : s.Reaches limits settings input limits.depth stmt u)
      (hspan : stmt.span = some span)
      (hdeep : (execute limits.rounds limits.depth stmt u).2 = some .tooDeep) :
      RunCulprit s limits settings input .runTooDeep span

end Script

/-! ## A run stays in its program -/

section

variable {p : List Stmt}

theorem Comes.of {rounds depth depth' : Nat} {stmt stmt' : Stmt} {s t : Session}
    (h : Comes rounds depth stmt s depth' stmt' t) (hstmt : (Node.stmt stmt).Of p) :
    (Node.stmt stmt').Of p := by
  induction h with
  | here => exact hstmt
  | block _ _ ih =>
    refine ih (.child hstmt ?_)
    exact List.mem_map_of_mem (List.mem_append_right _ List.mem_cons_self)
  | branch _ _ _ ih => exact ih (.child hstmt (by simp [Node.children]))
  | loop _ _ _ ih => exact ih (.child hstmt (by simp [Node.children]))

theorem Visits.of {lookup : String → Option Value} {depth depth' : Nat} {e e' : Expr}
    (h : Visits lookup depth e depth' e') (he : (Node.expr e).Of p) : (Node.expr e').Of p := by
  induction h with
  | here => exact he
  | left _ ih => exact ih (.child he (by simp [Node.children]))
  | right _ _ ih => exact ih (.child he (by simp [Node.children]))

theorem Node.of_effect {stmt : Stmt} {e : Expr} (hstmt : (Node.stmt stmt).Of p)
    (he : stmt.effect? = some e) : (Node.expr e).Of p := by
  refine .child hstmt ?_
  cases stmt with
  | express e' span =>
    cases he
    exact List.mem_singleton_self _
  | branch c body span =>
    cases he
    exact List.mem_cons_self
  | _ => cases he

/-- What is looked for in an assignment is its value. -/
theorem Node.of_expr_sought {e : Expr} (he : (Node.expr e).Of p) : (Node.expr e.sought).Of p := by
  cases e with
  | assign n v span => exact .child he (List.mem_singleton_self _)
  | _ => exact he

theorem Node.of_sought {stmt : Stmt} {e : Expr} (hstmt : (Node.stmt stmt).Of p)
    (he : stmt.sought? = some e) : (Node.expr e).Of p := by
  cases stmt with
  | express e' span =>
    cases he
    exact Node.of_expr_sought (Node.of_effect hstmt rfl)
  | branch c body span =>
    cases he
    exact Node.of_expr_sought (Node.of_effect hstmt rfl)
  | declare n e' span =>
    cases he
    exact .child hstmt (List.mem_singleton_self _)
  | speak e' span =>
    cases he
    exact .child hstmt (List.mem_singleton_self _)
  | _ => cases he

end

namespace Script

open Parse Program

variable {s : Script} {limits : Limits} {settings : Settings} {input : String} {f : Failure}

/-! ## Scripts that cannot be read -/

/-- A refusal at a token stands at the first token with which no program goes on. -/
theorem exists_refused {nesting : Nat}
    (h : Parse.program nesting (some s.text) s.scan s.finish = .error f) {t : Token}
    (ht : t ∈ s.scan ++ [s.finish]) (hspan : f.span = some t.span) (hend : f.fault.code ≠ "E102")
    (hdeep : f.fault ≠ .parseTooDeep) :
    ∃ pre post, s.scan = pre ++ t :: post ∧ Viable pre ∧ ¬ Viable (pre ++ [t]) := by
  have hpoints : Points Viable s.scan f := viable_points_of_error h hdeep
  have hnot : ¬ Viable s.scan := fun hviable => hend (hpoints.atEnd.mpr hviable)
  obtain ⟨-, pre, u, post, hscan, hspan', hpre, hu⟩ := hpoints.atToken hnot
  have hmem : u ∈ s.scan := by simp [hscan]
  rw [hspan] at hspan'
  obtain rfl : t = u := eq_of_span ht hmem (Option.some.inj hspan')
  exact ⟨pre, post, hscan, hpre pre List.prefix_rfl, hu⟩

theorem textCulprit_of_program {nesting : Nat}
    (h : Parse.program nesting (some s.text) s.scan s.finish = .error f) :
    ∃ span, f.span = some span ∧ s.Holds span ∧ s.TextCulprit f.fault span := by
  have hat := @exists_refused s f nesting h
  have hviable : f.fault ≠ .parseTooDeep → Points Viable s.scan f := viable_points_of_error h
  cases refused_of_program h with
  | unexpectedToken what ht =>
    obtain ⟨pre, post, hscan, hpre, hnot⟩ := hat ht rfl (by simp [Fault.code]) (by simp)
    have hmem : _ ∈ s.scan := hscan ▸ List.mem_append_right pre List.mem_cons_self
    exact ⟨_, rfl, holds_of_mem_scan hmem,
      .unexpectedToken what hscan hpre hnot (slice_of_mem_scan hmem)⟩
  | function ht hk =>
    obtain ⟨pre, post, hscan, hpre, hnot⟩ := hat ht rfl (by simp [Fault.code]) (by simp)
    have hmem : _ ∈ s.scan := hscan ▸ List.mem_append_right pre List.mem_cons_self
    refine ⟨_, rfl, holds_of_mem_scan hmem, .functionDeclared hscan hpre hk ?_⟩
    rw [slice_of_mem_scan hmem, lexeme_of_keyword hmem hk]
    rfl
  | unexpectedEnd what =>
    have hscan : Viable s.scan := (hviable (by simp)).atEnd.mp rfl
    refine ⟨_, rfl, s.holds_finish, .unexpectedEnd what hscan ?_ rfl s.slice_finish⟩
    show (({} : Location).after s.text.toList).offset = _
    rw [Location.offset_after]
    exact Nat.zero_add _
  | tooDeep ht =>
    refine ⟨_, rfl, ?_, .parseTooDeep ht⟩
    rcases List.mem_append.mp ht with ht | ht
    · exact holds_of_mem_scan ht
    · obtain rfl := List.mem_singleton.mp ht
      exact s.holds_finish

/-- **Where a script that cannot be read is at fault.** -/
theorem textCulprit_of_parse (h : s.parse limits = .error f) :
    ∃ span, f.span = some span ∧ s.Holds span ∧ s.TextCulprit f.fault span := by
  unfold parse at h
  dsimp only at h
  split at h
  · rename_i t hfind
    cases h
    obtain ⟨hbad, pre, post, hscan, hpre⟩ := List.find?_eq_some_iff_append.mp hfind
    have ht : t ∈ s.scan := by simp [hscan]
    have hgood : ∀ u ∈ pre, u.kind.isBad = false := fun u hu => by simpa using hpre u hu
    exact ⟨_, rfl, holds_of_mem_scan ht, .badToken hscan hgood hbad (slice_of_mem_scan ht)⟩
  · exact textCulprit_of_program h

/-! ## Runs that fail -/

theorem Holds.of_settings {span : Span} (h : (s.withSettings settings).Holds span) :
    s.Holds span :=
  ⟨⟨h.start.offset, h.start.line, h.start.column⟩, ⟨h.stop.offset, h.stop.line, h.stop.column⟩,
    h.forward⟩

/-- A node of the program has a span in the text, whatever the settings. -/
theorem exists_span {p : Program} (hp : (s.withSettings settings).parse limits = .ok p) {n : Node}
    (hn : n.Of p) : ∃ span, n.span = some span ∧ s.Holds span := by
  obtain ⟨span, hspan, hholds⟩ := holds_of_node hp hn
  exact ⟨span, hspan, hholds.of_settings⟩

theorem Reaches.of {depth : Nat} {stmt : Stmt} {u : Session}
    (h : s.Reaches limits settings input depth stmt u) :
    ∃ p, (s.withSettings settings).parse limits = .ok p ∧ (Node.stmt stmt).Of p := by
  obtain ⟨p, root, t, hp, hexec, hcomes⟩ := h
  exact ⟨p, hp, hcomes.of (.top hexec.mem)⟩

theorem Needs.of {depth : Nat} {e : Expr} {u : Session}
    (h : s.Needs limits settings input depth e u) :
    ∃ p, (s.withSettings settings).parse limits = .ok p ∧ (Node.expr e).Of p := by
  obtain ⟨levels, stmt, whole, hreaches, hwhole, hvisits⟩ := h
  obtain ⟨p, hp, hstmt⟩ := hreaches.of
  exact ⟨p, hp, hvisits.of (Node.of_sought hstmt hwhole)⟩

/-- An expression that fails by itself is the culprit, if the run needs its value. -/
theorem runCulprit_of_fails {depth : Nat} {e : Expr} {u : Session}
    (hneeds : s.Needs limits settings input depth e u)
    (h : FailsAt u.env.lookup depth e (.failure f)) :
    ∃ span, f.span = some span ∧ s.Holds span ∧
      s.RunCulprit limits settings input f.fault span := by
  obtain ⟨p, hp, he⟩ := hneeds.of
  obtain ⟨span, hspan, hholds⟩ := exists_span hp he
  generalize hwhy : Stop.failure f = why at h
  cases h with
  | tooDeep => cases hwhy
  | unbound hn =>
    cases hwhy
    cases hspan
    exact ⟨span, rfl, hholds, .unboundName hneeds hn (slice_of_name hp he)⟩
  | chained depth n v =>
    cases hwhy
    cases hspan
    obtain ⟨rest, hslice⟩ := slice_of_assign hp he
    exact ⟨span, rfl, hholds, .chainedAssignment hneeds hslice⟩
  | operation hl hr hop =>
    cases hspan
    rw [← hwhy] at hop
    obtain ⟨fault, hrefuses, rfl⟩ := Operator.apply_eq_failure_iff.mp hop
    exact ⟨span, rfl, hholds, .operation hneeds hl hr hrefuses⟩
  | stray => cases hwhy

/-- A statement that fails by itself has the culprit. -/
theorem runCulprit_of_stops {depth : Nat} {stmt : Stmt} {u : Session}
    (hreaches : s.Reaches limits settings input depth stmt u)
    (h : StopsAt limits.rounds depth stmt u (.failure f)) :
    ∃ span, f.span = some span ∧ s.Holds span ∧
      s.RunCulprit limits settings input f.fault span := by
  obtain ⟨p, hp, hstmt⟩ := hreaches.of
  cases depth with
  | zero => cases h
  | succ depth =>
    cases h.because with
    | value he h =>
      obtain ⟨depth', e', hvisits, hat⟩ := valueOf_error_iff.mp h
      exact runCulprit_of_fails ⟨depth, stmt, _, hreaches, he, hvisits⟩ hat
    | assignment he hv hn hf =>
      have hnode := Node.of_effect hstmt he
      obtain ⟨span, hspan, hholds⟩ := exists_span hp hnode
      cases hspan
      subst hf
      obtain ⟨rest, hslice⟩ := slice_of_assign hp hnode
      exact ⟨span, rfl, hholds, .unboundAssignment hreaches he hv hn hslice⟩
    | condition hcondition hc htrue hfalse hf =>
      subst hcondition hf
      obtain ⟨span, hspan, hholds⟩ := exists_span hp (Node.of_effect hstmt rfl)
      exact ⟨span, hspan, hholds, .condition hreaches hspan hc htrue hfalse⟩

/-- **Where a run that fails is at fault.** -/
theorem runCulprit_of_execute {p : Program} (hp : (s.withSettings settings).parse limits = .ok p)
    {root : Stmt} {t : Session} {why : Stop}
    (hexec : Executes settings.policy (some s.text) limits p [] (.start settings input) root t)
    (hwhy : (execute limits.rounds limits.depth root t).2 = some why)
    (hf : why.failure? root = some f) :
    ∃ span, f.span = some span ∧ s.Holds span ∧
      s.RunCulprit limits settings input f.fault span := by
  cases why with
  | exit => cases hf
  | crash c => cases hf
  | failure g =>
    cases hf
    obtain ⟨depth, stmt, u, hcomes, hat⟩ := execute_stop_iff.mp hwhy
    exact runCulprit_of_stops ⟨p, root, t, hp, hexec, hcomes⟩ hat
  | tooDeep =>
    cases hf
    obtain ⟨span, hspan, hholds⟩ := exists_span hp (.top hexec.mem)
    exact ⟨span, hspan, hholds, .tooDeep ⟨p, root, t, hp, hexec, .here _ _ _⟩ hspan hwhy⟩

/-- **What diagnostics point at.**  Every diagnostic of a run has a span, which goes forward between
two places of the text and belongs to the culprit. -/
theorem run_culprits {o : Outcome} (h : (s.run limits settings input).1 = .ok o) {g : Failure}
    (hg : g ∈ o.failures) :
    ∃ span, g.diagnostic.span = some span ∧ s.Holds span ∧
      ((s.withSettings settings).TextCulprit g.fault span ∨
        s.RunCulprit limits settings input g.fault span) := by
  rw [run] at h
  cases hp : (s.withSettings settings).parse limits with
  | error f =>
    rw [hp] at h
    cases h
    obtain rfl := List.mem_singleton.mp hg
    obtain ⟨span, hspan, hholds, hculprit⟩ := textCulprit_of_parse hp
    exact ⟨span, hspan, hholds.of_settings, .inl hculprit⟩
  | ok p =>
    rw [hp] at h
    rcases mem_failures h hg with hg | ⟨root, t, why, f, hexec, hwhy, hf, rfl⟩
    · cases hg
    · obtain ⟨span, hspan, hholds, hculprit⟩ := runCulprit_of_execute hp hexec hwhy hf
      refine ⟨span, ?_, hholds, ?_⟩
      · show (f.quoting (some s.text)).span = some span
        rw [f.span_quoting, hspan]
      · rw [f.fault_quoting]
        exact .inr hculprit

/-- An assignment, an operation and a condition that fail one after the other. -/
def mixedSample : Script :=
  { text := "ghost = \"x\"; speak \"a\" - \"b\"; if (\"x\") exit;" }

def mixedSettings : Settings := { policy := .proceed }

theorem run_culprits_mixedSample : ∃ o, (mixedSample.run .small mixedSettings "").1 = .ok o ∧
    o.failures.map (fun g => (g.fault.code, g.span.map mixedSample.slice)) =
      [("E401", some "ghost = \"x\""), ("E402", some "\"a\" - \"b\""), ("E404", some "\"x\"")] ∧
    ∀ g ∈ o.failures, ∃ span, g.diagnostic.span = some span ∧ mixedSample.Holds span ∧
      ((mixedSample.withSettings mixedSettings).TextCulprit g.fault span ∨
        mixedSample.RunCulprit .small mixedSettings "" g.fault span) := by
  have hslices : (mixedSample.run .small mixedSettings "").1.map (fun o =>
      o.failures.map fun g => (g.fault.code, g.span.map mixedSample.slice)) =
      .ok [("E401", some "ghost = \"x\""), ("E402", some "\"a\" - \"b\""),
        ("E404", some "\"x\"")] := by
    decide +kernel
  cases hrun : (mixedSample.run .small mixedSettings "").1 with
  | error c =>
    rw [hrun] at hslices
    cases hslices
  | ok o =>
    rw [hrun] at hslices
    exact ⟨o, rfl, Except.ok.inj hslices, fun g hg => run_culprits hrun hg⟩

end Script

end DialogueScript
