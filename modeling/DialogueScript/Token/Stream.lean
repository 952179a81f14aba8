import DialogueScript.Syntax.Parse

/-!
# Streams of tokens

Model of `Lexer.scan`, `Lexer.spanned` and `Lexer.__iter__` as they are read, one token at a time.

A stream reads the tokens of a script one by one and remembers where it is.  Any number of streams
may read the same script; none of them knows about the others.

* `Stream.next` — the next token of a stream, or the failure at a piece that is no token;
* `Stream.drain` — everything that is left;
* `Streams.step` — opening streams by name and reading from them in any order;
* `Stream.next_of_ended` — a stream that has ended gives nothing more.
-/

namespace DialogueScript

/-- What a stream gives. -/
inductive StreamMode where
  /-- Every piece of the text, also those that are no token. -/
  | pieces
  /-- The tokens up to the first piece that is none, which is a failure. -/
  | tokens
  /-- The same, and the end of the text as one more token. -/
  | closed
  deriving DecidableEq, Repr

structure Stream where
  mode : StreamMode
  /-- The text that is not read yet, and where it starts. -/
  rest : List Char
  place : Location := {}
  ended : Bool := false
  deriving DecidableEq, Repr

/-- A stream at the start of a script. -/
def Script.openStream (s : Script) (mode : StreamMode) : Stream := { mode, rest := s.text.toList }

namespace Stream

/-- A stream that gives nothing more. -/
def stop (st : Stream) : Stream := { st with rest := [], ended := true }

/-- The next token, if there is one. -/
def next (s : Script) (st : Stream) : Option (Except Failure Token) × Stream :=
  if st.ended then (none, st)
  else match Scan.splitGap false st.rest with
    | (gap, []) =>
      let l := st.place.after gap
      let last : Option (Except Failure Token) := match st.mode with
        | .closed => some (.ok ⟨.finish, "", ⟨s.file, l, l⟩⟩)
        | _ => none
      (last, st.stop)
    | (gap, c :: rest) =>
      let m := Scan.munch s.integers c rest
      let start := st.place.after gap
      let stop := start.after m.lexeme
      let t : Token := ⟨m.kind, String.ofList m.lexeme, ⟨s.file, start, stop⟩⟩
      if m.kind.isBad && st.mode != .pieces then (some (.error (s.badToken t)), st.stop)
      else (some (.ok t), { st with rest := m.rest, place := stop })

/-- At most `bound` more tokens, the failure after them, and the stream then. -/
def drainUpTo (s : Script) : Nat → Stream → List Token × Option Failure × Stream
  | 0, st => ([], none, st)
  | bound + 1, st =>
    match st.next s with
    | (none, st) => ([], none, st)
    | (some (.error f), st) => ([], some f, st)
    | (some (.ok t), st) =>
      let (ts, failure, st) := drainUpTo s bound st
      (t :: ts, failure, st)

/-- Everything that is left.  A token takes a character at least, and the end of the text is one
more. -/
def drain (s : Script) (st : Stream) : List Token × Option Failure × Stream :=
  st.drainUpTo s (st.rest.length + 2)

theorem next_of_ended {s : Script} {st : Stream} (h : st.ended = true) :
    st.next s = (none, st) := by
  simp [next, h]

end Stream

/-- Streams by name. -/
abbrev Streams := List (String × Stream)

namespace Streams

inductive Use where
  | start (name : String) (mode : StreamMode)
  | next (name : String)
  | rest (name : String)
  deriving DecidableEq, Repr

inductive Reply where
  | started
  | token (t : Token)
  | tokens (ts : List Token)
  | failure (f : Failure)
  | nothing
  deriving DecidableEq

/-- Puts a stream in the place of the one with its name. -/
def set : Streams → String → Stream → Streams
  | [], n, st => [(n, st)]
  | (m, old) :: rest, n, st => if m = n then (n, st) :: rest else (m, old) :: set rest n st

def step (s : Script) (all : Streams) : Use → Reply × Streams
  | .start n mode => (.started, all.set n (s.openStream mode))
  | .next n =>
    match all.lookup n with
    | none => (.nothing, all)
    | some st =>
      match st.next s with
      | (none, st) => (.nothing, all.set n st)
      | (some (.ok t), st) => (.token t, all.set n st)
      | (some (.error f), st) => (.failure f, all.set n st)
  | .rest n =>
    match all.lookup n with
    | none => (.nothing, all)
    | some st =>
      match st.drain s with
      | (ts, none, st) => (.tokens ts, all.set n st)
      | (_, some f, st) => (.failure f, all.set n st)

theorem lookup_set (all : Streams) (n m : String) (st : Stream) :
    (all.set n st).lookup m = if m = n then some st else all.lookup m := by
  induction all with
  | nil =>
    by_cases h : m = n
    · simp [set, h]
    · simp [set, List.lookup_cons, h, beq_eq_false_iff_ne.mpr h]
  | cons e all ih =>
    obtain ⟨k, old⟩ := e
    unfold set
    split
    · rename_i hk
      subst hk
      by_cases hm : m = k
      · simp [hm]
      · simp [List.lookup_cons, hm, beq_eq_false_iff_ne.mpr hm]
    · rename_i hk
      by_cases hm : m = k
      · subst hm
        simp [hk]
      · simp [List.lookup_cons, beq_eq_false_iff_ne.mpr hm, ih]

end Streams

end DialogueScript
