import Mathlib.Data.List.Nodup
import DialogueScript.Proofs.Readings
import DialogueScript.Proofs.Slices

/-!
# Where names and failures come from

The names in a program are tokens of its script, an assignment starts at the token that is its name,
and a script that is not read fails at one of its tokens or at its end.

* `Node.All` — a property of all nodes from one on downwards;
* `Node.Anchored` — the token that a name is, or that an assignment starts with;
* `Parse.Refused` — the failures about tokens, each with the token it is about;
* `Script.anchored_of_parse`, `Script.refused_of_program` — the names of a program are anchored, and
  scripts fail with these failures only;
* `Script.slice_of_mem_scan`, `Script.slice_of_name`, `Script.slice_of_assign` — **the slice of a
  token is its lexeme, that of a name is the name, and that of an assignment starts with it**;
* `Script.Holds`, `Script.holds_of_node` — spans that go forward between places of the text, as
  those of all nodes do.
-/

namespace DialogueScript

/-! ## All nodes -/

namespace Node

/-- A node and all nodes below it have a property. -/
inductive All (P : Node → Prop) : Node → Prop
  | node {n : Node} (hn : P n) (hchildren : ∀ m ∈ n.children, All P m) : All P n

variable {P : Node → Prop}

theorem All.of {p : List Stmt} (hp : ∀ s ∈ p, All P (.stmt s)) {n : Node} (hn : n.Of p) : P n := by
  have hall : All P n := by
    induction hn with
    | top hs => exact hp _ hs
    | child _ hn ih =>
      cases ih with
      | node _ hchildren => exact hchildren _ hn
  cases hall with
  | node hn _ => exact hn

/-- A name is one of the tokens, and an assignment starts at the one that is its name. -/
def Anchored (ts : List Token) : Node → Prop
  | expr (.name n span) => ∃ t ∈ ts, t.kind = .name n ∧ span = some t.span
  | expr (.assign n _ span) => ∃ t ∈ ts, t.kind = .name n ∧ ∃ l, span = Parse.spanTo t l
  | _ => True

end Node

namespace Parse

variable {ctx : Context} {ts : List Token}

/-- The failures of parsing, with the tokens they are about. -/
inductive Refused (ctx : Context) (ts : List Token) : Failure → Prop
  | unexpectedToken (what : String) {t : Token} (ht : t ∈ ts) :
      Refused ctx ts ⟨.unexpectedToken what t.text, some t.span, ctx.lineOf t⟩
  | unexpectedEnd (what : String) :
      Refused ctx ts ⟨.unexpectedEnd what, some ctx.finish.span, none⟩
  | function {t : Token} (ht : t ∈ ts) (hk : t.kind = .keyword .function) :
      Refused ctx ts ⟨.functionDeclared, some t.span, ctx.lineOf t⟩
  | tooDeep {t : Token} (ht : t ∈ ts) :
      Refused ctx ts ⟨.parseTooDeep, some t.span, ctx.lineOf t⟩

/-- Readers make anchored nodes, and are refused at the tokens. -/
theorem keepsAnchored (hfinish : ctx.finish ∈ ts) :
    Keeps ctx (· ∈ ts) (fun _ => True) (Refused ctx ts)
      (fun e => Node.All (Node.Anchored ts) (.expr e))
      (fun s => Node.All (Node.Anchored ts) (.stmt s)) where
  stop _ := trivial
  finish := hfinish
  unexpectedToken what _ ht := .unexpectedToken what ht
  unexpectedEnd what := .unexpectedEnd what
  function ht hk := .function ht hk
  tooDeep ht := .tooDeep ht
  number _ _ := .node trivial (List.forall_mem_nil _)
  text _ _ := .node trivial (List.forall_mem_nil _)
  name ht hk := .node ⟨_, ht, hk, rfl⟩ (List.forall_mem_nil _)
  assign ht hk _ hv := .node ⟨_, ht, hk, _, rfl⟩ (List.forall_mem_singleton.mpr hv)
  binary _ _ ha hb := .node trivial
    (List.forall_mem_cons.mpr ⟨ha, List.forall_mem_singleton.mpr hb⟩)
  declare _ _ he := .node trivial (List.forall_mem_singleton.mpr he)
  speak _ _ he := .node trivial (List.forall_mem_singleton.mpr he)
  input _ _ := .node trivial (List.forall_mem_nil _)
  branch _ _ hc hbody := .node trivial
    (List.forall_mem_cons.mpr ⟨hc, List.forall_mem_singleton.mpr hbody⟩)
  loop _ _ hbody := .node trivial (List.forall_mem_singleton.mpr hbody)
  exit _ _ := .node trivial (List.forall_mem_nil _)
  block _ _ hbody := .node trivial (List.forall_mem_map.mpr hbody)
  express _ _ he := .node trivial (List.forall_mem_singleton.mpr he)

end Parse

/-! ## Lexemes -/

namespace Scan

theorem munch_of_name {integers : Bool} {c : Char} {rest : List Char} {n : String}
    (h : (munch integers c rest).kind = .name n) : (munch integers c rest).lexeme = n.toList := by
  revert h
  unfold munch
  split
  · unfold munchText
    split <;> simp
  · split
    · simp only [munchNumber]
      split <;> simp
    · split
      · simp only [munchWord]
        split
        · simp
        · intro h
          cases h
          exact String.toList_ofList.symm
      · unfold munchSign
        split
        · split <;> simp
        · split <;> simp

theorem munch_of_keyword {integers : Bool} {c : Char} {rest : List Char} {k : Keyword}
    (h : (munch integers c rest).kind = .keyword k) :
    Text.fold (munch integers c rest).lexeme = k.word.toList := by
  revert h
  unfold munch
  split
  · unfold munchText
    split <;> simp
  · split
    · simp only [munchNumber]
      split <;> simp
    · split
      · simp only [munchWord]
        split
        · rename_i k' hword
          intro h
          cases h
          exact Keyword.ofWord?_eq_some_iff.mp hword
        · simp
      · unfold munchSign
        split
        · split <;> simp
        · split <;> simp

end Scan

namespace Script

open Parse

variable {s : Script} {limits : Limits} {t : Token} {span : Span}

theorem lexeme_of_name {n : String} (ht : t ∈ s.scan) (hk : t.kind = .name n) : t.lexeme = n := by
  have hlexeme := forall_mem_scan (P := fun k cs => ∀ n, k = .name n → cs = n.toList)
    (fun _ _ _ => Scan.munch_of_name) ht n hk
  exact String.toList_injective hlexeme

/-- A keyword is written as its word, but for the capitals. -/
theorem lexeme_of_keyword {k : Keyword} (ht : t ∈ s.scan) (hk : t.kind = .keyword k) :
    Text.fold t.lexeme.toList = k.word.toList :=
  forall_mem_scan (P := fun k cs => ∀ k', k = .keyword k' → Text.fold cs = k'.word.toList)
    (fun _ _ _ => Scan.munch_of_keyword) ht k hk

/-- The slice of a token is its lexeme. -/
theorem slice_of_mem_scan (ht : t ∈ s.scan) : s.slice t.span = t.lexeme := by
  obtain ⟨before, after, htext, hspan⟩ := mem_scan ht
  have hoffset (cs : List Char) : (({} : Location).after cs).offset = cs.length := by
    rw [Location.offset_after]
    exact Nat.zero_add _
  unfold slice
  rw [hspan]
  dsimp only
  rw [hoffset, hoffset, List.length_append, htext, extract_between, String.ofList_toList]

theorem slice_finish (s : Script) : s.slice s.finish.span = "" := by
  have hempty : s.finish.span.stop = s.finish.span.start := rfl
  unfold slice
  rw [hempty, List.extract_eq_take_drop, Nat.sub_self]
  rfl

/-- A token is known by its start. -/
theorem eq_of_start {u : Token} (ht : t ∈ s.scan) (hu : u ∈ s.scan)
    (h : t.span.start = u.span.start) : t = u := by
  have hnodup : (s.scan.map (·.span.start)).Nodup := by
    refine List.pairwise_map.mpr (s.ordered_scan.pairwise.imp_of_mem ?_)
    intro a b ha _ hbefore heq
    have hlt := s.ordered_scan.proper a ha
    rw [heq] at hlt
    exact Nat.not_lt_of_le hbefore hlt
  exact List.inj_on_of_nodup_map hnodup ht hu h

/-- No token has the span of the end. -/
theorem eq_of_span {u : Token} (ht : t ∈ s.scan ++ [s.finish]) (hu : u ∈ s.scan)
    (h : t.span = u.span) : t = u := by
  rcases List.mem_append.mp ht with ht | ht
  · exact eq_of_start ht hu (congrArg Span.start h)
  · obtain rfl := List.mem_singleton.mp ht
    have hlt := s.ordered_scan.proper u hu
    rw [← h] at hlt
    exact absurd hlt (Nat.lt_irrefl _)

/-- The slice of a span starts with the slice of any span that starts there and ends inside. -/
theorem slice_eq_append (s : Script) (inner outer : Span) (hstart : inner.start = outer.start)
    (hforward : inner.start.offset ≤ inner.stop.offset)
    (hstop : inner.stop.offset ≤ outer.stop.offset) :
    ∃ rest, s.slice outer = s.slice inner ++ rest := by
  let rest := s.text.toList.extract inner.stop.offset outer.stop.offset
  refine ⟨String.ofList rest, ?_⟩
  have hlength : outer.stop.offset - inner.start.offset =
      (inner.stop.offset - inner.start.offset) + (outer.stop.offset - inner.stop.offset) := by
    omega
  have hoffset : inner.start.offset + (inner.stop.offset - inner.start.offset) =
      inner.stop.offset := by
    omega
  unfold slice
  rw [← hstart, ← String.ofList_append, List.extract_eq_take_drop, List.extract_eq_take_drop,
    hlength, List.take_add, List.drop_drop, hoffset]

/-! ## Programs and failures of a script -/

theorem refused_of_program {nesting : Nat} {f : Failure}
    (h : Parse.program nesting (some s.text) s.scan s.finish = .error f) :
    Refused ⟨s.finish, some s.text, s.scan.length + 1⟩ (s.scan ++ [s.finish]) f := by
  let ctx : Context := ⟨s.finish, some s.text, s.scan.length + 1⟩
  have hkeeps := @keepsAnchored ctx (s.scan ++ [s.finish]) (by simp [ctx])
  have hprogram := hkeeps.program nesting (fun t ht => List.mem_append_left _ ht) trivial
  rw [h] at hprogram
  exact hprogram

theorem anchored_of_parse {p : Program} (h : s.parse limits = .ok p) {n : Node} (hn : n.Of p) :
    n.Anchored (s.scan ++ [s.finish]) := by
  let ctx : Context := ⟨s.finish, some s.text, s.scan.length + 1⟩
  have hkeeps := @keepsAnchored ctx (s.scan ++ [s.finish]) (by simp [ctx])
  have hprogram := hkeeps.program limits.nesting (fun t ht => List.mem_append_left _ ht) trivial
  rw [(good_of_parse h).2] at hprogram
  exact Node.All.of hprogram hn

theorem mem_scan_of_name {n : String} (ht : t ∈ s.scan ++ [s.finish]) (hk : t.kind = .name n) :
    t ∈ s.scan := by
  rcases List.mem_append.mp ht with ht | ht
  · exact ht
  · obtain rfl := List.mem_singleton.mp ht
    cases hk

/-- **The slice of a name is the name.** -/
theorem slice_of_name {p : Program} (h : s.parse limits = .ok p) {n : String}
    (hn : (Node.expr (.name n (some span))).Of p) : s.slice span = n := by
  obtain ⟨t, ht, hk, hspan⟩ := anchored_of_parse h hn
  cases hspan
  have hscan := mem_scan_of_name ht hk
  rw [slice_of_mem_scan hscan, lexeme_of_name hscan hk]

/-- A span that goes forward from one place of the text to another. -/
structure Holds (s : Script) (span : Span) : Prop where
  start : s.Located span.start
  stop : s.Located span.stop
  forward : span.start.offset ≤ span.stop.offset

theorem holds_of_mem_scan (ht : t ∈ s.scan) : s.Holds t.span := by
  obtain ⟨hstart, hstop⟩ := isPlace_of_mem_scan ht
  exact ⟨hstart.located, hstop.located, Nat.le_of_lt (s.ordered_scan.proper t ht)⟩

theorem holds_finish (s : Script) : s.Holds s.finish.span :=
  ⟨isPlace_finish.1.located, isPlace_finish.2.located, Nat.le_refl _⟩

theorem holds_of_node {p : Program} (h : s.parse limits = .ok p) {n : Node} (hn : n.Of p) :
    ∃ span, n.span = some span ∧ s.Holds span := by
  obtain ⟨pre, us, post, hscan, hus, -, hcovers⟩ := exists_tokens h hn
  obtain ⟨span, hspan, hspans⟩ := hcovers.exists_span
  have hforward := Nat.le_of_lt (hus.proper_span hspans)
  have hmem : ∀ t ∈ us, t ∈ s.scan := fun t ht => by simp [hscan, ht]
  obtain ⟨first, hfirst, last, hlast, rfl⟩ := hspans
  have hstart := isPlace_of_mem_scan (hmem first (List.mem_of_mem_head? hfirst))
  have hstop := isPlace_of_mem_scan (hmem last (List.mem_of_getLast? hlast))
  exact ⟨_, hspan, hstart.1.located, hstop.2.located, hforward⟩

/-- **The slice of an assignment starts with its name.** -/
theorem slice_of_assign {p : Program} (h : s.parse limits = .ok p) {n : String} {v : Expr}
    (hn : (Node.expr (.assign n v (some span))).Of p) : ∃ rest, s.slice span = n ++ rest := by
  obtain ⟨t, ht, hk, l, hl⟩ := anchored_of_parse h hn
  have hscan := mem_scan_of_name ht hk
  have hstart : t.span.start = span.start := by rw [Option.some.inj hl]
  -- the first token of the assignment is the one that is its name
  obtain ⟨pre, us, post, hus, hordered, -, hcovers⟩ := exists_tokens h hn
  obtain ⟨_, hspan, hspans⟩ := hcovers.exists_span
  cases hspan
  have hmem : ∀ u ∈ us, u ∈ s.scan := fun u hu => by simp [hus, hu]
  have hfirst : t ∈ us := by
    obtain ⟨first, hfirst, last, -, heq⟩ := hspans
    have hus := List.mem_of_mem_head? hfirst
    rw [heq] at hstart
    rwa [eq_of_start hscan (hmem first hus) hstart]
  have hforward := Nat.le_of_lt (s.ordered_scan.proper t hscan)
  have hstop := (hordered.inside hspans hfirst).stop
  obtain ⟨rest, hrest⟩ := s.slice_eq_append t.span span hstart hforward hstop
  refine ⟨rest, ?_⟩
  rw [hrest, slice_of_mem_scan hscan, lexeme_of_name hscan hk]

end Script

end DialogueScript
