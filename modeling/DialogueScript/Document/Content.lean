import DialogueScript.Document
import DialogueScript.Document.Mark
import DialogueScript.Document.Scalar
import DialogueScript.Number.Magnitude

/-!
# Contents of documents

The plain data that the marks of a document stand for.  A text holds one document at most.  What is
left out between two signs is null, and when a key is given twice the last value counts.

* `putEntry` — one more entry of a mapping; lists and mappings cannot be keys;
* `node?` — the data at the start of a row of marks;
* `ofText` — what comes of a whole text.
-/

namespace DialogueScript.Document

/-- A number that a key is, in units of the smallest one; truth values count as one and zero. -/
def keyNumber? : Plain → Option Int
  | .int n => some (n * (1 <<< 1074 : Nat))
  | .bool b => some (if b then (1 <<< 1074 : Nat) else 0)
  | .float x =>
    let k := Number.magnitude x
    if Number.infinite < k then none
    else
      let n : Int := if k = Number.infinite then (1 <<< 4000 : Nat) else Number.units k
      some (if Number.isNegative x then -n else n)
  | _ => none

/-- Whether two keys are the same: numbers by their size, texts by their characters. -/
def sameKey (a b : Plain) : Bool :=
  match a, b with
  | .null, .null => true
  | .text s, .text t => s == t
  | .other _ s _ _, .other _ t _ _ => s == t
  | a, b =>
    match keyNumber? a, keyNumber? b with
    | some x, some y => x == y
    | _, _ => false

/-- Whether data can be a key. -/
def isKey : Plain → Bool
  | .list _ | .map _ => false
  | _ => true

/-- Puts an entry into a mapping; a key keeps its place. -/
def putEntry (key value : Plain) : List (Plain × Plain) → List (Plain × Plain)
  | [] => [(key, value)]
  | (k, v) :: rest =>
    if sameKey k key then (k, value) :: rest else (k, v) :: putEntry key value rest

/-- The mapping of a list of entries. -/
def mapOf? (entries : List (Plain × Plain)) : Option Plain :=
  if entries.all fun e => isKey e.1 then
    some (.map (entries.foldl (fun m e => putEntry e.1 e.2 m) []))
  else none

/-- Data and the marks that follow it. -/
abbrev Found (α : Type) := Option (α × List Mark)

/-- Reads data, unless one of the marks `stops` comes next: then it is null. -/
def orNull (stops : List Mark) (read : List Mark → Found Plain) (ms : List Mark) : Found Plain :=
  match ms with
  | m :: _ => if stops.contains m then some (.null, ms) else read ms
  | [] => read ms

/-- Reads a value, if the mark for a value comes next; otherwise it is null. -/
def valueAfter (stops : List Mark) (read : List Mark → Found Plain) : List Mark → Found Plain
  | .value :: rest => orNull stops read rest
  | ms => some (.null, ms)

/-- A key and its value between brackets. -/
def pairIn (close : Mark) (read : List Mark → Found Plain) (ms : List Mark) :
    Found (Plain × Plain) :=
  (orNull [.value, .comma, close] read ms).bind fun (key, ms) =>
    (valueAfter [.comma, close] read ms).map fun (value, ms) => ((key, value), ms)

/-- Entries between brackets: between two of them stands a comma, and one may stand after the
last. -/
def entriesIn {α : Type} (close : Mark) (entry : List Mark → Found α) : Nat → Bool → List Mark →
    Found (List α)
  | 0, _, _ => none
  | bound + 1, first, ms =>
    let one := fun ms => (entry ms).bind fun (e, ms) =>
      (entriesIn close entry bound false ms).map fun (es, ms) => (e :: es, ms)
    match ms with
    | [] => none
    | m :: rest =>
      if m = close then some ([], rest)
      else if first then one ms
      else if m = .comma then
        match rest with
        | m :: more => if m = close then some ([], more) else one rest
        | [] => none
      else none

/-- An item of a list between brackets; a key with a value is a mapping of its own. -/
def bracketItem (read : List Mark → Found Plain) : List Mark → Found Plain
  | .key :: rest =>
    (pairIn .closeList read rest).bind fun (e, ms) => (mapOf? [e]).map fun p => (p, ms)
  | ms => read ms

/-- An entry of a mapping between brackets; without a colon the value is null. -/
def bracketEntry (read : List Mark → Found Plain) : List Mark → Found (Plain × Plain)
  | .key :: rest => pairIn .closeMap read rest
  | ms => (read ms).map fun (key, ms) => ((key, .null), ms)

/-- The items of a list by indentation. -/
def items (stops : List Mark) (read : List Mark → Found Plain) : Nat → List Mark →
    Found (List Plain)
  | 0, _ => none
  | bound + 1, ms =>
    match ms with
    | .item :: rest =>
      (orNull stops read rest).bind fun (p, ms) =>
        (items stops read bound ms).map fun (ps, ms) => (p :: ps, ms)
    | ms => some ([], ms)

/-- The entries of a mapping by indentation. -/
def entries (read : List Mark → Found Plain) : Nat → List Mark → Found (List (Plain × Plain))
  | 0, _ => none
  | bound + 1, ms =>
    match ms with
    | .key :: rest =>
      (orNull [.key, .value, .blockEnd] read rest).bind fun (key, ms) =>
        (valueAfter [.key, .value, .blockEnd] read ms).bind fun (value, ms) =>
          (entries read bound ms).map fun (es, ms) => ((key, value) :: es, ms)
    | ms => some ([], ms)

/-- What is read up to the end of a collection by indentation. -/
def closed {α : Type} (found : Found α) : Found α :=
  found.bind fun (x, ms) => match ms with
    | .blockEnd :: rest => some (x, rest)
    | _ => none

/-- The data at the start of a row of marks, at most `bound` levels deep.  Inside a mapping by
indentation a list need not be indented further. -/
def node? (inMap : Bool) : Nat → List Mark → Found Plain
  | 0, _ => none
  | bound + 1, ms =>
    let count := ms.length + 1
    match ms with
    | .word s :: rest => (scalar? s).map fun p => (p, rest)
    | .quoted s :: rest => some (.text s, rest)
    | .openList :: rest =>
      (entriesIn .closeList (bracketItem (node? false bound)) count true rest).map
        fun (ps, ms) => (.list ps, ms)
    | .openMap :: rest =>
      (entriesIn .closeMap (bracketEntry (node? false bound)) count true rest).bind
        fun (es, ms) => (mapOf? es).map fun p => (p, ms)
    | .listStart :: rest =>
      (closed (items [.item, .blockEnd] (node? false bound) count rest)).map
        fun (ps, ms) => (.list ps, ms)
    | .mapStart :: rest =>
      (closed (entries (node? true bound) count rest)).bind
        fun (es, ms) => (mapOf? es).map fun p => (p, ms)
    | .item :: _ =>
      if inMap then
        (items [.item, .key, .value, .blockEnd] (node? false bound) count ms).map
          fun (ps, ms) => (.list ps, ms)
      else none
    | _ => none

/-- The data of a text without marks for its start. -/
def body? (ms : List Mark) : Found Plain := node? false (ms.length + 1) ms

/-- The data of a row of marks, which hold one document at most. -/
def ofMarks? (ms : List Mark) : Option Plain :=
  let found : Found Plain := match ms with
    | [] => some (.null, [])
    | .docStart :: [] => some (.null, [])
    | .docStart :: rest => orNull [.docStart, .docEnd] body? rest
    | ms => body? ms
  found.bind fun (p, rest) => if rest.all (· == .docEnd) then some p else none

/-- What is read from a text.  All of it must be a document before any word is taken for data. -/
def ofText (s : String) : Document :=
  match (marks? s.toList).bind fun ms => (ofMarks? ms).map fun p => (ms, p) with
  | none => .malformed "the text is not a single document"
  | some (ms, p) =>
    let fault? := ms.findSome? fun
      | .word w => meaningless? w
      | _ => none
    match fault? with
    | some why => .meaningless why
    | none => .data p

end DialogueScript.Document
