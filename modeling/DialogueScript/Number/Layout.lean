import DialogueScript.Number.Shortest

/-!
# The texts of a number

Model of `format_number`, and of the number in the text of a `Value`.

A number has two texts, both made of its shortest decimal.

* `display` — what a script prints: always positional, without a fraction that is zero;
* `dump` — what a message shows: positional from `0.0001` to below `10 ^ 16`, and then always with
  a fraction, otherwise with an exponent of at least two digits.
-/

namespace DialogueScript.Number

/-- The digits with the point in its place. -/
def Decimal.positional (d : Decimal) : List Char :=
  let ds := Nat.toDigits 10 d.digits
  match d.exponent with
  | .ofNat e => ds ++ List.replicate e '0'
  | .negSucc e =>
    let whole := ds.take (ds.length - (e + 1))
    let fraction := (ds.drop (ds.length - (e + 1))).leftpad (e + 1) '0'
    (if whole.isEmpty then ['0'] else whole) ++ '.' :: fraction

/-- One digit before the point, the others after it, and the power of ten. -/
def Decimal.scientific (d : Decimal) : List Char :=
  let ds := Nat.toDigits 10 d.digits
  let power := d.exponent + (ds.length - 1 : Nat)
  let fraction := if ds.length ≤ 1 then [] else '.' :: ds.drop 1
  let sign := if power < 0 then '-' else '+'
  ds.take 1 ++ fraction ++ 'e' :: sign :: (Nat.toDigits 10 power.natAbs).leftpad 2 '0'

/-- The positional text with a fraction, if need be a zero. -/
def Decimal.fractional (d : Decimal) : List Char :=
  if d.exponent < 0 then d.positional else d.positional ++ ['.', '0']

/-- How many places the digits reach before the point. -/
def Decimal.places (d : Decimal) : Int := (Nat.toDigits 10 d.digits).length + d.exponent

def minus (negative : Bool) : List Char := if negative then ['-'] else []

/-- The text of a number that is no finite one, or of its decimal by `layout`. -/
def write (nan : List Char) (layout : Decimal → List Char) (x : Float) : List Char :=
  let k := magnitude x
  if infinite < k then nan
  else minus (isNegative x) ++
    if k = infinite then ['i', 'n', 'f'] else layout (shortest k)

/-- The text that a script prints.  Model of `format_number`. -/
def display (x : Float) : String := String.ofList (write ['N', 'a', 'N'] Decimal.positional x)

/-- The text inside messages. -/
def dump (x : Float) : String :=
  String.ofList (write ['n', 'a', 'n']
    (fun d => if -4 < d.places ∧ d.places ≤ 16 then d.fractional else d.scientific) x)

theorem positional_of_nonneg {n : Nat} (e : Nat) :
    Decimal.positional ⟨n, e⟩ = Nat.toDigits 10 n ++ List.replicate e '0' := rfl

end DialogueScript.Number
