import DialogueScript.Number.Magnitude

/-!
# The shortest decimal of a number

Of the decimals that are read back as a number, the shortest is a multiple of the greatest possible
power of ten, and of those multiples the one nearest to the number; a tie goes to the even multiple.

* `Cell` — the values that are read as one magnitude;
* `Cell.multiple?` — the multiple of a step in the cell that is nearest to its value;
* `shortest` — the search, from great powers of ten to small ones.
-/

namespace DialogueScript.Number

/-- The number `digits * 10 ^ exponent`. -/
structure Decimal where
  digits : Nat
  exponent : Int
  deriving DecidableEq, Repr

/-- The values that are read as one magnitude, in multiples of some small step. -/
structure Cell where
  low : Nat
  value : Nat
  high : Nat
  /-- Whether the two ends belong to it. -/
  closed : Bool
  deriving DecidableEq, Repr

/-- The cell of a magnitude, in half units.  A tie between neighbours goes to the even one. -/
def Cell.ofMagnitude (k : Nat) : Cell where
  low := units (k - 1) + units k
  value := 2 * units k
  high := units k + units (k + 1)
  closed := k % 2 == 0

def Cell.has (c : Cell) (x : Nat) : Bool :=
  if c.closed then decide (c.low ≤ x) && decide (x ≤ c.high)
  else decide (c.low < x) && decide (x < c.high)

/-- The same cell in tenths of the step. -/
def Cell.tenfold (c : Cell) : Cell :=
  { c with low := 10 * c.low, value := 10 * c.value, high := 10 * c.high }

/-- Which multiple of `step` in the cell is nearest to its value.  Where the cell holds any
multiple, it holds one of the two on either side of its value. -/
def Cell.multiple? (c : Cell) (step : Nat) : Option Nat :=
  let m := c.value / step
  match c.has (m * step), c.has ((m + 1) * step) with
  | true, true => some (roundDiv c.value step)
  | true, false => some m
  | false, true => some (m + 1)
  | false, false => none

/-- Looks for a multiple of `step` and goes on with the next smaller power of ten. -/
def search (step : Nat) : Nat → Cell → Int → Decimal
  | 0, c, power => ⟨c.value / step, power⟩
  | rounds + 1, c, power =>
    match c.multiple? step with
    | some digits => ⟨digits, power⟩
    | none => search step rounds c.tenfold (power - 1)

/-- No finite number reaches this power of ten. -/
def greatestPower : Nat := 309

/-- So many half units make up `10 ^ greatestPower`. -/
def firstStep : Nat := Nat.pow 10 greatestPower <<< 1075

/-- Every finite number is a whole multiple of a power of ten within so many rounds. -/
def searchRounds : Nat := 1400

/-- The shortest decimal that is read as the magnitude `k`. -/
def shortest (k : Nat) : Decimal :=
  if k = 0 then ⟨0, 0⟩ else search firstStep searchRounds (.ofMagnitude k) greatestPower

/-- The magnitude nearest to a decimal.  An exponent beyond `400` exceeds the finite numbers
whatever the digits, and one so far below zero stays under half a unit. -/
def Decimal.magnitude (d : Decimal) : Nat :=
  if d.digits = 0 then 0
  else if 400 < d.exponent then infinite
  else if d.exponent < -((d.digits.log2 : Int) + 400) then 0
  else match d.exponent with
    | .ofNat e => nearest ((d.digits * Nat.pow 10 e) <<< 1074) 1
    | .negSucc e => nearest (d.digits <<< 1074) (Nat.pow 10 (e + 1))

theorem Cell.has_value {k : Nat} (h : 0 < k) : (Cell.ofMagnitude k).has (2 * units k) = true := by
  have h1 := units_lt_units (show k - 1 < k by omega)
  have h2 := units_lt_units (show k < k + 1 by omega)
  cases hk : k % 2 == 0 <;> simp [Cell.has, Cell.ofMagnitude, hk] <;> omega

end DialogueScript.Number
