import DialogueScript.Command.Perform
import DialogueScript.Proofs.Slices

/-!
# Rows of comparisons

Comparisons stand one after the other on one level of nesting, and each of them is one more level of
the tree.  So there is a script for every height of a tree.

* `Stmt.height_erase` — the height of a tree without its spans;
* `Kind.not_mem_spaced`, `Text.plainLineEnds_of_not_mem` — a text of written tokens has plain line
  ends if the tokens have;
* `Command.comparingText` — a script with so many comparisons;
* `Command.parse_comparing` — **it is read, and its tree is as high as it has comparisons, and
  two**.
-/

namespace DialogueScript

/-- So many comparisons of empty texts, one after the other. -/
def Expr.comparisons : Nat → Expr
  | 0 => .literal (.text "") none
  | n + 1 => .binary (comparisons n) .equals (.literal (.text "") none) none

/-- The tokens of these comparisons. -/
def Kind.comparisons : Nat → List Kind
  | 0 => [.text ""]
  | n + 1 => comparisons n ++ [.sign .equals, .text ""]

/-- The tokens of a statement that speaks their value. -/
def Kind.comparing (n : Nat) : List Kind :=
  .keyword .speak :: comparisons n ++ [.sign .semicolon]

theorem Expr.height_comparisons (n : Nat) : (comparisons n).height = n + 1 := by
  induction n with
  | zero => rfl
  | succ n ih =>
    show max (comparisons n).height 1 + 1 = n + 1 + 1
    rw [ih, Nat.max_eq_left (Nat.le_add_left 1 n)]

theorem Expr.height_erase (e : Expr) : e.erase.height = e.height := by
  induction e with
  | assign n v span ih => exact congrArg (· + 1) ih
  | binary l op r span ihl ihr =>
    show max l.erase.height r.erase.height + 1 = max l.height r.height + 1
    rw [ihl, ihr]
  | literal v span => rfl
  | name n span => rfl
  | stray label fields => rfl

mutual

theorem Stmt.height_erase : ∀ s : Stmt, s.erase.height = s.height
  | .block body _ => congrArg (· + 1) (Stmt.heightAll_erase body)
  | .express e _ | .speak e _ | .declare _ e _ => congrArg (· + 1) e.height_erase
  | .branch c body _ => by
    show max c.erase.height body.erase.height + 1 = max c.height body.height + 1
    rw [c.height_erase, Stmt.height_erase body]
  | .loop body _ => congrArg (· + 1) (Stmt.height_erase body)
  | .input _ _ | .exit _ | .stray _ _ => rfl

theorem Stmt.heightAll_erase : ∀ ss : List Stmt, Stmt.heightAll (Stmt.eraseAll ss) =
    Stmt.heightAll ss
  | [] => rfl
  | s :: ss => by
    show max s.erase.height (Stmt.heightAll (Stmt.eraseAll ss)) = max s.height (Stmt.heightAll ss)
    rw [Stmt.height_erase s, Stmt.heightAll_erase ss]

end

/-- A row of comparisons is an expression on one level. -/
theorem Grammar.derives_comparisons (levels n : Nat) :
    Expression (levels + 1) (Kind.comparisons n) (Expr.comparisons n) := by
  refine .comparison ?_
  induction n with
  | zero => exact .first (.first (.first (.text "")))
  | succ n ih => exact .next ih .equals (.first (.first (.text "")))

theorem Kind.mem_comparing {n : Nat} {k : Kind} (hk : k ∈ comparing n) :
    k ∈ [.keyword .speak, .text "", .sign .equals, .sign .semicolon] := by
  have hrow (m : Nat) : ∀ k ∈ comparisons m, k = .text "" ∨ k = .sign .equals := by
    induction m with
    | zero => exact fun k hk => .inl (List.mem_singleton.mp hk)
    | succ m ih =>
      intro k hk
      rcases List.mem_append.mp hk with hk | hk
      · exact ih k hk
      · simpa [or_comm] using hk
  simp only [comparing, List.cons_append, List.mem_cons, List.mem_append, List.not_mem_nil,
    or_false] at hk ⊢
  rcases hk with rfl | hk | rfl
  · exact .inl rfl
  · rcases hrow n k hk with rfl | rfl <;> simp
  · simp

theorem Kind.writable_comparing (n : Nat) : ∀ k ∈ comparing n, k.Writable := by
  intro k hk
  have hmem := mem_comparing hk
  simp only [List.mem_cons, List.not_mem_nil, or_false] at hmem
  rcases hmem with rfl | rfl | rfl | rfl
  · trivial
  · exact List.not_mem_nil
  · trivial
  · trivial

/-- Tokens with blanks between them have the characters of the tokens and blanks. -/
theorem Kind.not_mem_spaced {c : Char} (hc : c ≠ ' ') {ks : List Kind}
    (hks : ∀ k ∈ ks, c ∉ k.written.toList) : c ∉ (spaced ks).toList := by
  have hafter : c ∉ Scan.afterFirst ks.tail := by
    have htail : ∀ k ∈ ks.tail, c ∉ k.written.toList := fun k hk => hks k (List.mem_of_mem_tail hk)
    generalize ks.tail = ls at htail
    induction ls with
    | nil => exact List.not_mem_nil
    | cons k ls ih =>
      rw [List.forall_mem_cons] at htail
      rw [Scan.afterFirst, List.mem_cons, List.mem_append]
      rintro (h | h | h)
      · exact hc h
      · exact htail.1 h
      · exact ih htail.2 h
  cases ks with
  | nil => simp [spaced]
  | cons k ks =>
    rw [Scan.toList_spaced_cons, List.mem_append]
    rintro (h | h)
    · exact hks k List.mem_cons_self h
    · exact hafter h

theorem Text.plainLineEnds_of_not_mem {s : String} (h : '\r' ∉ s.toList) :
    plainLineEnds s = s := by
  unfold plainLineEnds
  rw [joinPairs_of_not_mem h]
  have hsame : ∀ c ∈ s.toList, (if c == '\r' then '\n' else c) = c := by
    intro c hc
    rw [if_neg]
    rintro heq
    exact h (beq_iff_eq.mp heq ▸ hc)
  rw [List.map_congr_left hsame, List.map_id', String.ofList_toList]

namespace Command

/-- A script that compares empty texts so many times. -/
def comparingText (n : Nat) : String := Kind.spaced (Kind.comparing n)

theorem plainLineEnds_comparing (n : Nat) :
    Text.plainLineEnds (comparingText n) = comparingText n := by
  refine Text.plainLineEnds_of_not_mem (Kind.not_mem_spaced (by simp) fun k hk => ?_)
  have hmem := Kind.mem_comparing hk
  simp only [List.mem_cons, List.not_mem_nil, or_false] at hmem
  rcases hmem with rfl | rfl | rfl | rfl <;> decide

/-- **Comparisons are read, however many there are.**  The tree has a level for each of them. -/
theorem parse_comparing {limits : Limits} (hnesting : 2 ≤ limits.nesting) (n : Nat)
    (file : String) :
    ∃ p, (scriptOf file (comparingText n)).parse limits = .ok p ∧ Program.height p = n + 2 := by
  have hkinds : Parse.kinds (scriptOf file (comparingText n)).scan = Kind.comparing n :=
    Script.kinds_scan_spaced (Kind.writable_comparing n) (some file)
  have hgood : ∀ k ∈ Kind.comparing n, k.isBad = false :=
    fun k hk => (Kind.writable_comparing n k hk).isBad
  have hderives : Grammar.Program limits.nesting (Kind.comparing n)
      [.speak (Expr.comparisons n) none] := by
    obtain ⟨levels, hlevels⟩ := Nat.exists_eq_add_of_le' hnesting
    rw [hlevels]
    exact .one (.speak (Grammar.derives_comparisons levels n))
  obtain ⟨p, hp, herase⟩ := Script.parse_of_kinds hkinds hgood hderives
  refine ⟨p, hp, ?_⟩
  calc
    Program.height p = Program.height p.erase := (Stmt.heightAll_erase p).symm
    _ = max ((Expr.comparisons n).height + 1) 0 := by rw [herase]; rfl
    _ = n + 2 := by rw [Expr.height_comparisons, Nat.max_zero]

end Command

end DialogueScript
