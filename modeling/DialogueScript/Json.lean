import DialogueScript.Text.Quoted

/-!
# Data for other programs

Trees of named and listed data, and how they are written in JSON: one entry or item on a line, each
level indented by two blanks, and only ASCII characters.

* `Json.escape` — one character inside a text;
* `Json.text` — a whole tree.
-/

namespace DialogueScript

inductive Json where
  | null
  | number (n : Nat)
  | string (s : String)
  | list (items : List Json)
  | object (entries : List (String × Json))

namespace Json

open Text.Quoted (doubleQuote backslash hex)

/-- A character by the number of a unit of sixteen bits. -/
def escapeUnit (n : Nat) : List Char := backslash :: 'u' :: hex 4 n

/-- A character inside a text.  One that needs more than sixteen bits is written as two units. -/
def escape (c : Char) : List Char :=
  let n := c.toNat
  if c == doubleQuote || c == backslash then [backslash, c]
  else if c == '\n' then [backslash, 'n']
  else if c == '\r' then [backslash, 'r']
  else if c == '\t' then [backslash, 't']
  else if c == '\x08' then [backslash, 'b']
  else if c == '\x0c' then [backslash, 'f']
  else if 0x20 ≤ n ∧ n ≤ 0x7e then [c]
  else if n < 0x10000 then escapeUnit n
  else escapeUnit (0xd800 + (n - 0x10000) / 0x400) ++ escapeUnit (0xdc00 + (n - 0x10000) % 0x400)

def quoted (s : String) : String :=
  String.ofList (doubleQuote :: s.toList.flatMap escape ++ [doubleQuote])

def innerPad (pad : String) : String := pad ++ "  "

/-- Lines between two brackets. -/
def bracketed (pad start stop : String) (lines : List String) : String :=
  if lines.isEmpty then start ++ stop
  else start ++ "\n" ++ ",\n".intercalate lines ++ "\n" ++ pad ++ stop

mutual

/-- A tree whose first line stands behind `pad`. -/
def write (pad : String) : Json → String
  | null => "null"
  | number n => toString n
  | string s => quoted s
  | list items => bracketed pad "[" "]" (writeItems (innerPad pad) items)
  | object entries => bracketed pad "\x7b" "\x7d" (writeEntries (innerPad pad) entries)

def writeItems (pad : String) : List Json → List String
  | [] => []
  | item :: items => (pad ++ item.write pad) :: writeItems pad items

def writeEntries (pad : String) : List (String × Json) → List String
  | [] => []
  | (name, value) :: entries =>
    (pad ++ quoted name ++ ": " ++ value.write pad) :: writeEntries pad entries

end

def text (j : Json) : String := j.write ""

/-- A printable ASCII character that is neither a quote nor a backslash stands for itself. -/
theorem escape_of_plain {c : Char} (h : 0x20 ≤ c.toNat ∧ c.toNat ≤ 0x7e) (hq : c ≠ doubleQuote)
    (hb : c ≠ backslash) : escape c = [c] := by
  have hn : c ≠ '\n' := fun e => by subst e; exact absurd h.1 (by decide)
  have hr : c ≠ '\r' := fun e => by subst e; exact absurd h.1 (by decide)
  have ht : c ≠ '\t' := fun e => by subst e; exact absurd h.1 (by decide)
  have h8 : c ≠ '\x08' := fun e => by subst e; exact absurd h.1 (by decide)
  have hf : c ≠ '\x0c' := fun e => by subst e; exact absurd h.1 (by decide)
  simp [escape, hq, hb, hn, hr, ht, h8, hf, h]

end Json

end DialogueScript
