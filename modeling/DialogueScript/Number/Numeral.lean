import DialogueScript.Number.Shortest

/-!
# Numbers written as text

Model of `parse_number`, and of the number that `_Scanner._scan_number` makes of its digits.

The texts that count as numbers: an optional sign, then digits with an optional point among them or
before them and an optional exponent, or one of the words `inf`, `infinity` and `nan` in any mixture
of capitals.  The dotless and the dotted capital `i` also pass for the letter `i` of a word, but
then no number can be read.

* `Reading` — a number, no number, or a word that cannot be read;
* `readNumber` — which of them a text is.
-/

namespace DialogueScript.Number

/-- The number that a row of digits stands for. -/
def digitsValue (ds : List Char) : Nat := ds.foldl (fun n c => 10 * n + (c.toNat - 48)) 0

/-- A sign and what follows it; `true` is minus. -/
def splitSign : List Char → Bool × List Char
  | '+' :: rest => (false, rest)
  | '-' :: rest => (true, rest)
  | rest => (false, rest)

/-- The power of ten at the end of a numeral: none, or the letter `e` and a whole number. -/
def readExponent : List Char → Option Int
  | [] => some 0
  | c :: rest =>
    if c == 'e' || c == 'E' then
      let (negative, ds) := splitSign rest
      if !ds.isEmpty && ds.all Char.isDigit then
        some (if negative then -(digitsValue ds : Int) else digitsValue ds)
      else none
    else none

/-- A point and the digits after it, and what follows them. -/
def splitFraction : List Char → List Char × List Char
  | '.' :: rest => (rest.takeWhile Char.isDigit, rest.dropWhile Char.isDigit)
  | rest => ([], rest)

/-- An unsigned numeral made of digits. -/
def readDecimal (cs : List Char) : Option Decimal :=
  let whole := cs.takeWhile Char.isDigit
  let (fraction, rest) := splitFraction (cs.dropWhile Char.isDigit)
  if whole.isEmpty && fraction.isEmpty then none
  else (readExponent rest).map fun e => ⟨digitsValue (whole ++ fraction), e - fraction.length⟩

/-- Whether `c` passes for the lower-case letter `l` when capitals do not matter. -/
def passesFor (c l : Char) : Bool :=
  c.toLower == l || l == 'i' && (c == '\u0130' || c == '\u0131')

/-- Whether a text passes for a word. -/
def spells (cs word : List Char) : Bool :=
  cs.length == word.length && (cs.zip word).all fun p => passesFor p.1 p.2

inductive Reading where
  | number (x : Float)
  | noNumber
  /-- It passes for a word, but not in ASCII letters. -/
  | unreadable
  deriving DecidableEq

def notANumber : Float := Float.ofBits 0x7FF8000000000000

/-- The number that a text stands for.  Model of `parse_number`. -/
def readNumber (s : String) : Reading :=
  let (negative, cs) := splitSign s.toList
  match readDecimal cs with
  | some d => .number (ofMagnitude negative d.magnitude)
  | none =>
    let infinity := spells cs ['i', 'n', 'f'] ||
      spells cs ['i', 'n', 'f', 'i', 'n', 'i', 't', 'y']
    if !infinity && !spells cs ['n', 'a', 'n'] then .noNumber
    else if cs.any fun c => decide (0x80 ≤ c.toNat) then .unreadable
    else if infinity then .number (ofMagnitude negative infinite)
    else .number notANumber

/-- The number of a numeral that is written with digits and at most one point. -/
def ofNumeral (cs : List Char) : Float :=
  match readDecimal cs with
  | some d => ofMagnitude false d.magnitude
  | none => notANumber

end DialogueScript.Number
