import DialogueScript.Number.Numeral
import DialogueScript.Plain

/-!
# Plain words in a document

A word without quotes may stand for nothing, a truth value, a number or a day; all other words are
texts.
Numbers may have underscores between their digits, whole numbers may be binary, octal or
hexadecimal, and both kinds may be written in sections of sixty, as hours and minutes are.

* `wholeNumber?`, `realNumber?` — the numbers;
* `Day` — a day of the calendar;
* `scalar?` — what a word stands for; two words have no meaning of their own;
* `meaningless?` — why a word that looks like a number or a day stands for none.
-/

namespace DialogueScript.Document

def dropUnderscores (cs : List Char) : List Char := cs.filter (· != '_')

/-- The digits of the bases that are in use. -/
def digitBelow (base : Nat) (c : Char) : Bool :=
  match base with
  | 2 => c == '0' || c == '1'
  | 8 => decide ('0' ≤ c ∧ c ≤ '7')
  | 16 => c.isDigit || decide ('a' ≤ c ∧ c ≤ 'f') || decide ('A' ≤ c ∧ c ≤ 'F')
  | _ => c.isDigit

def digitValue (c : Char) : Nat :=
  if c.isDigit then c.toNat - '0'.toNat else c.toLower.toNat - 'a'.toNat + 10

/-- A row of digits and underscores in a base, if there is a digit in it and nothing else. -/
def digits? (base : Nat) (cs : List Char) : Option Nat :=
  let ds := dropUnderscores cs
  if !ds.isEmpty && ds.all (digitBelow base) then
    some (ds.foldl (fun n c => base * n + digitValue c) 0)
  else none

/-- The sections of a number between colons. -/
def sections : List Char → List (List Char)
  | [] => [[]]
  | c :: rest =>
    match c == ':', sections rest with
    | true, more => [] :: more
    | false, first :: more => (c :: first) :: more
    | false, [] => [[c]]

/-- A section after the first: one digit, or two of which the first is at most five. -/
def isSixtieth : List Char → Bool
  | [c] => c.isDigit
  | [c, d] => decide ('0' ≤ c ∧ c ≤ '5') && d.isDigit
  | _ => false

/-- Digits and underscores that start with a digit. -/
def isDigitRow (cs : List Char) : Bool :=
  (cs.head?.map Char.isDigit).getD false && cs.all fun c => c.isDigit || c == '_'

/-- A whole number without a sign. -/
def magnitude? : List Char → Option Nat
  | ['0'] => some 0
  | '0' :: 'b' :: ds => digits? 2 ds
  | '0' :: 'x' :: ds => digits? 16 ds
  | '0' :: ds => digits? 8 ('0' :: ds)
  | cs =>
    match sections cs with
    | [] => none
    | first :: later =>
      if isDigitRow first && later.all isSixtieth then
        some ((first :: later).foldl (fun n s => 60 * n + (digits? 10 s).getD 0) 0)
      else none

def wholeNumber? (cs : List Char) : Option Int :=
  let (negative, cs) := Number.splitSign cs
  (magnitude? cs).map fun n => if negative then -(n : Int) else n

/-- The power of ten at the end of a number, which is always signed. -/
def isExponent : List Char → Bool
  | [] => true
  | [_] => false
  | e :: s :: ds => (e == 'e' || e == 'E') && (s == '+' || s == '-') && !ds.isEmpty &&
    ds.all Char.isDigit

/-- Digits, a point, more digits and perhaps a power of ten; without digits in front there is a
digit right after the point. -/
def isDecimal (signed : Bool) (cs : List Char) : Bool :=
  let inRow := fun c : Char => c.isDigit || c == '_'
  let whole := cs.takeWhile inRow
  match cs.dropWhile inRow with
  | '.' :: rest =>
    let fraction := rest.takeWhile inRow
    let start := if whole.isEmpty then !signed && isDigitRow fraction else isDigitRow whole
    start && isExponent (rest.dropWhile inRow)
  | _ => false

/-- Sections of sixty of which the last one has a point. -/
def sixtieths? (cs : List Char) : Option Float :=
  match sections cs, cs.dropWhile (· != '.') with
  | first :: next :: later, '.' :: fraction =>
    let middle := (next :: later).map fun s => s.takeWhile (· != '.')
    if isDigitRow first && middle.all isSixtieth &&
        fraction.all (fun c => c.isDigit || c == '_') then
      let parts := (first :: next :: later).map fun s => Number.ofNumeral (dropUnderscores s)
      let add := fun (acc : Float × Nat) (x : Float) =>
        (acc.1 + x * Float.ofNat acc.2, acc.2 * 60)
      some (parts.reverse.foldl add (0.0, 1)).1
    else none
  | _, _ => none

def infinityWords : List String := [".inf", ".Inf", ".INF"]

def nanWords : List String := [".nan", ".NaN", ".NAN"]

def realNumber? (cs : List Char) : Option Float :=
  let (negative, rest) := Number.splitSign cs
  let signed := rest.length < cs.length
  if isDecimal signed rest then
    (Number.readDecimal (dropUnderscores rest)).map fun d =>
      Number.ofMagnitude negative d.magnitude
  else if infinityWords.contains (String.ofList rest) then
    some (Number.ofMagnitude negative Number.infinite)
  else if nanWords.contains (String.ofList cs) then some Number.notANumber
  else (sixtieths? rest).map fun x => if negative then -x else x

structure Day where
  year : Nat
  month : Nat
  day : Nat
  deriving DecidableEq, Repr

namespace Day

def daysInMonth (year month : Nat) : Nat :=
  if month = 2 then if year % 4 = 0 && (year % 100 != 0 || year % 400 = 0) then 29 else 28
  else if [4, 6, 9, 11].contains month then 30 else 31

/-- Four digits for the year, two for the month and two for the day. -/
def ofText? : List Char → Option Day
  | [y, e, a, r, '-', m, n, '-', d, f] =>
    let number := fun ds => digits? 10 ds
    match [y, e, a, r, m, n, d, f].all Char.isDigit, number [y, e, a, r], number [m, n],
      number [d, f] with
    | true, some year, some month, some day => some ⟨year, month, day⟩
    | _, _, _, _ => none
  | _ => none

/-- Why there is no such day. -/
def fault? (d : Day) : Option String :=
  if d.year = 0 then some "year 0 is out of range"
  else if d.month = 0 || 12 < d.month then some "month must be in 1..12"
  else if d.day = 0 || daysInMonth d.year d.month < d.day then some "day is out of range for month"
  else none

/-- A day as it is shown in a message. -/
def dump (d : Day) : String := s!"datetime.date({d.year}, {d.month}, {d.day})"

end Day

def nullWords : List String := ["", "~", "null", "Null", "NULL"]

def trueWords : List String :=
  ["yes", "Yes", "YES", "true", "True", "TRUE", "on", "On", "ON"]

def falseWords : List String :=
  ["no", "No", "NO", "false", "False", "FALSE", "off", "Off", "OFF"]

/-- Words that are reserved and mean nothing by themselves. -/
def reservedWords : List String := ["=", "<<"]

/-- What a word stands for. -/
def scalar? (w : String) : Option Plain :=
  if reservedWords.contains w then none
  else if nullWords.contains w then some .null
  else if trueWords.contains w then some (.bool true)
  else if falseWords.contains w then some (.bool false)
  else match wholeNumber? w.toList, realNumber? w.toList with
    | some n, _ => some (.int n)
    | none, some x => some (.float x)
    | none, none =>
      match Day.ofText? w.toList with
      | some d => some (.other w d.dump true false)
      | none => some (.text w)

/-- The digits of a whole number that is written by tens and has too many of them. -/
def tooManyDigits? (cs : List Char) : Option Nat :=
  match (Number.splitSign cs).2 with
  | '0' :: _ => none
  | ds =>
    let count := (dropUnderscores ds).length
    if isDigitRow ds && Plain.digitLimit < count then some count else none

/-- Why a word that looks like a number or a day stands for none. -/
def meaningless? (w : String) : Option String :=
  match tooManyDigits? w.toList with
  | some count =>
    some (s!"Exceeds the limit ({Plain.digitLimit} digits) for integer string conversion: " ++
      s!"value has {count} digits; use sys.set_int_max_str_digits() to increase the limit")
  | none => (Day.ofText? w.toList).bind Day.fault?

end DialogueScript.Document
