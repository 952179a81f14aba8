import DialogueScript.Proofs.MaximalMunch
import DialogueScript.Proofs.Slices

/-!
# With and without integers

Where integers are not allowed, a number without a point is a bad piece.  Nothing else changes: the
text is cut at the same places.

* `Kind.strict`, `Token.strict` — what becomes of a token where integers are not allowed;
* `Scan.munch_strict` — the first token of a text;
* `Script.scan_strict` — all tokens of a script;
* `Script.parse_of_strict` — **a script that can be parsed without integers is the same program with
  them**;
* `Script.strict_reading` — **without integers the tokens are the same but for the numbers without a
  point, and just the scripts without such numbers are read, as the same programs**.
-/

namespace DialogueScript

/-- What a token of the given characters becomes where integers are not allowed. -/
def Kind.strict (lexeme : List Char) : Kind → Kind
  | .number x => if '.' ∈ lexeme then .number x else .bad (String.ofList lexeme)
  | k => k

/-- What a token becomes where integers are not allowed. -/
def Token.strict (t : Token) : Token := { t with kind := t.kind.strict t.lexeme.toList }

/-- A token that does not become bad stays what it is. -/
theorem Kind.strict_of_good {k : Kind} {lexeme : List Char}
    (h : (k.strict lexeme).isBad = false) : k.strict lexeme = k := by
  cases k with
  | number x =>
    unfold strict at h ⊢
    dsimp only at h ⊢
    split
    · rfl
    · rename_i hpoint
      rw [if_neg hpoint] at h
      cases h
  | _ => rfl

/-- Only numbers without a point change. -/
theorem Token.strict_eq_iff {t : Token} :
    t.strict = t ↔ ∀ x, t.kind = .number x → '.' ∈ t.lexeme.toList := by
  obtain ⟨kind, lexeme, span⟩ := t
  cases kind with
  | number x =>
    by_cases hpoint : '.' ∈ lexeme.toList
    · simp [strict, Kind.strict, hpoint]
    · simp [strict, Kind.strict, hpoint]
  | _ => simp [strict, Kind.strict]

namespace Scan

variable {c : Char} {cs : List Char}

/-- What a piece becomes where integers are not allowed. -/
def Piece.strict (p : Piece) : Piece := { p with kind := p.kind.strict p.lexeme }

theorem munchText_strict (lexeme : List Char) (cs : List Char) :
    (munchText cs).kind.strict lexeme = (munchText cs).kind := by
  unfold munchText
  split <;> rfl

theorem munchWord_strict (lexeme : List Char) (cs : List Char) :
    (munchWord cs).kind.strict lexeme = (munchWord cs).kind := by
  simp only [munchWord]
  split <;> rfl

theorem munchSign_strict (lexeme : List Char) (c : Char) (cs : List Char) :
    (munchSign c cs).kind.strict lexeme = (munchSign c cs).kind := by
  unfold munchSign
  split
  · split <;> rfl
  · split <;> rfl

/-- A number has a point exactly where it has a fraction. -/
theorem munchNumber_strict (cs : List Char) : munchNumber false cs =
    { munchNumber true cs with
      kind := (munchNumber true cs).kind.strict (munchNumber true cs).lexeme } := by
  have hwhole : '.' ∉ cs.takeWhile Char.isDigit := by
    intro hmem
    have hdigit := List.mem_takeWhile_imp hmem
    cases hdigit
  simp only [munchNumber, Bool.not_true, Bool.and_false, Bool.false_eq_true, if_false]
  rcases splitPoint_cases (cs.dropWhile Char.isDigit) with hnil | ⟨fraction, hsome, -, -⟩
  · rw [hnil, List.append_nil, Kind.strict, if_neg hwhole]
    rfl
  · have hpoint : '.' ∈ cs.takeWhile Char.isDigit ++ '.' :: fraction :=
      List.mem_append_right _ List.mem_cons_self
    rw [hsome, Kind.strict, if_pos hpoint]
    rfl

/-- **The first token of a text without integers.** -/
theorem munch_strict (c : Char) (cs : List Char) : munch false c cs =
    { munch true c cs with
      kind := (munch true c cs).kind.strict (munch true c cs).lexeme } := by
  unfold munch
  split
  · rw [munchText_strict]
  · split
    · exact munchNumber_strict (c :: cs)
    · split
      · rw [munchWord_strict]
      · rw [munchSign_strict]

theorem pieces_strict (cs : List Char) :
    (pieces false cs).1 = (pieces true cs).1.map Piece.strict := by
  generalize hintegers : true = integers
  fun_induction pieces integers cs with
  | case1 cs gap h => rw [pieces_nil_of_splitGap h, List.map_nil]
  | case2 cs gap c rest h m more last hm ih =>
    subst hintegers
    have hmunch := munch_strict c rest
    have hrest : (munch false c rest).rest = m.rest := by rw [hmunch]
    rw [hm] at ih
    rw [pieces_of_splitGap h, hrest, ih, hmunch, List.map_cons]
    rfl

end Scan

namespace Script

theorem place_strict (s : Script) (l : Location) (ps : List Scan.Piece) :
    Script.place { s with integers := false } l (ps.map Scan.Piece.strict) =
      (Script.place { s with integers := true } l ps).map Token.strict := by
  induction ps generalizing l with
  | nil => rfl
  | cons p ps ih =>
    have hkind : p.strict.kind = p.kind.strict (String.ofList p.lexeme).toList := by
      rw [String.toList_ofList]
      rfl
    rw [List.map_cons, place, place, List.map_cons, ← ih, hkind]
    rfl

/-- **The tokens of a script without integers.** -/
theorem scan_strict (s : Script) :
    Script.scan { s with integers := false } =
      (Script.scan { s with integers := true }).map Token.strict := by
  have hplace := place_strict s {} (Scan.pieces true s.text.toList).1
  rwa [← Scan.pieces_strict] at hplace

/-- Without bad tokens no token changes. -/
theorem strict_of_good {s : Script}
    (h : ∀ t ∈ Script.scan { s with integers := false }, t.kind.isBad = false) {t : Token}
    (ht : t ∈ Script.scan { s with integers := true }) : t.strict = t := by
  have hgood : t.strict.kind.isBad = false := by
    refine h _ ?_
    rw [scan_strict]
    exact List.mem_map_of_mem ht
  show { t with kind := t.kind.strict t.lexeme.toList } = t
  rw [Kind.strict_of_good hgood]

/-- If no token changes it makes no difference whether integers are allowed. -/
theorem scan_of_strict {s : Script}
    (h : ∀ t ∈ Script.scan { s with integers := true }, t.strict = t) :
    Script.scan { s with integers := true } = Script.scan { s with integers := false } := by
  rw [scan_strict, List.map_congr_left h, List.map_id']

/-- Only the tokens matter to what is parsed. -/
theorem parse_of_scan_eq {s : Script} {limits : Limits} {a b : Bool} {p : Program}
    (h : Script.parse { s with integers := a } limits = .ok p)
    (hscan : Script.scan { s with integers := a } = Script.scan { s with integers := b }) :
    Script.parse { s with integers := b } limits = .ok p := by
  obtain ⟨hgood, hprogram⟩ := good_of_parse h
  rw [parse_of_good, ← hscan]
  · exact hprogram
  · intro k hk
    obtain ⟨t, ht, rfl⟩ := List.mem_map.mp hk
    rw [← hscan] at ht
    exact hgood t ht

/-- **A script that can be parsed without integers is the same program with them.** -/
theorem parse_of_strict {s : Script} {limits : Limits} {p : Program}
    (h : Script.parse { s with integers := false } limits = .ok p) :
    Script.parse { s with integers := true } limits = .ok p := by
  obtain ⟨hgood, -⟩ := good_of_parse h
  exact parse_of_scan_eq h (scan_of_strict fun t => strict_of_good hgood).symm

/-- A script whose tokens do not change is the same program without integers. -/
theorem parse_strict {s : Script} {limits : Limits} {p : Program}
    (h : Script.parse { s with integers := true } limits = .ok p)
    (hsame : ∀ t ∈ Script.scan { s with integers := true }, t.strict = t) :
    Script.parse { s with integers := false } limits = .ok p :=
  parse_of_scan_eq h (scan_of_strict hsame)

/-- **Reading without integers.**  The tokens are those with integers, at the same places and of the
same characters, but a number that has no point is bad.  So a program is read from a script without
integers exactly if the same one is read with them, spans included, and all its numbers have a
point. -/
theorem strict_reading (s : Script) (limits : Limits) :
    Script.scan { s with integers := false } =
        (Script.scan { s with integers := true }).map Token.strict ∧
      ∀ p, Script.parse { s with integers := false } limits = .ok p ↔
        Script.parse { s with integers := true } limits = .ok p ∧
          ∀ t ∈ Script.scan { s with integers := true }, ∀ x, t.kind = .number x →
            '.' ∈ t.lexeme.toList := by
  refine ⟨scan_strict s, fun p => ⟨fun h => ⟨parse_of_strict h, fun t ht => ?_⟩, ?_⟩⟩
  · obtain ⟨hgood, -⟩ := good_of_parse h
    exact Token.strict_eq_iff.mp (strict_of_good hgood ht)
  · rintro ⟨h, hpoints⟩
    exact parse_strict h fun t ht => Token.strict_eq_iff.mpr (hpoints t ht)

end Script

end DialogueScript
