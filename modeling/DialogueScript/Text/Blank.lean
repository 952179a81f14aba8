/-!
# Blank characters

The blanks that `_parse_bool` and `_parse_enum` strip from a word.

The twenty-nine characters that count as blank around a word: the white space of Unicode together
with the four separator controls.

* `strip_of_ends` — a text with no blank at either end is left alone.
-/

namespace DialogueScript.Text

def isBlank (c : Char) : Bool :=
  let n := c.toNat
  decide (0x9 ≤ n ∧ n ≤ 0xD) || decide (0x1C ≤ n ∧ n ≤ 0x20) || n == 0x85 || n == 0xA0 ||
    n == 0x1680 || decide (0x2000 ≤ n ∧ n ≤ 0x200A) || n == 0x2028 || n == 0x2029 ||
    n == 0x202F || n == 0x205F || n == 0x3000

/-- The text without the blanks at its two ends. -/
def strip (cs : List Char) : List Char :=
  ((cs.dropWhile isBlank).reverse.dropWhile isBlank).reverse

theorem isBlank_of_isWhitespace {c : Char} (h : c.isWhitespace = true) : isBlank c = true := by
  simp only [Char.isWhitespace, Bool.or_eq_true, decide_eq_true_eq] at h
  rcases h with ((h | h) | h) | h <;> subst h <;> rfl

/-- A word as it is compared: no blanks around it, capital letters lowered.  The words it is
compared with are ASCII and have no `k`, so lowering the ASCII capitals decides. -/
def plainWord (s : String) : String := String.ofList ((strip s.toList).map Char.toLower)

theorem strip_of_ends {cs : List Char} (hfirst : ∀ c ∈ cs.head?, isBlank c = false)
    (hlast : ∀ c ∈ cs.getLast?, isBlank c = false) : strip cs = cs := by
  have h1 : cs.dropWhile isBlank = cs := by
    cases cs with
    | nil => rfl
    | cons c rest => simp [List.dropWhile, hfirst c (by simp)]
  have h2 : cs.reverse.dropWhile isBlank = cs.reverse := by
    cases hr : cs.reverse with
    | nil => rfl
    | cons c rest =>
      have hc : cs.getLast? = some c := by rw [← List.head?_reverse, hr]; rfl
      simp [List.dropWhile, hlast c (by simp [hc])]
  rw [strip, h1, h2, List.reverse_reverse]

end DialogueScript.Text
