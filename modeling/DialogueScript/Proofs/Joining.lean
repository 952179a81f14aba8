import DialogueScript.Proofs.Continuation
import DialogueScript.Proofs.Slices

/-!
# One script behind another

A script that is read may stand in front of any other one, with a line feed between them.  No string
and no comment of the first goes on in the second, and its last statement takes no token of it.

* `Location.further`, `Script.shift` — a location so many lines and characters further down;
* `Scan.splitGap_newline`, `Script.place_newline` — a gap and a line feed only move what follows;
* `Script.scan_joined` — the tokens of both scripts, those of the second further down;
* `Script.parse_joined` — **the statements of both scripts, or the failure of the second**.
-/

namespace DialogueScript

/-! ## Further down -/

/-- The location so many lines and characters further down.  The column stays. -/
def Location.further (lines characters : Nat) (l : Location) : Location :=
  ⟨l.line + lines, l.column, l.offset + characters⟩

namespace Location

variable {lines characters : Nat}

theorem step_further (l : Location) (c : Char) :
    (l.further lines characters).step c = (l.step c).further lines characters := by
  unfold step
  split <;> simp [further] <;> omega

theorem after_further (l : Location) (cs : List Char) :
    (l.further lines characters).after cs = (l.after cs).further lines characters := by
  induction cs generalizing l with
  | nil => rfl
  | cons c cs ih =>
    show ((l.further lines characters).step c).after cs = ((l.step c).after cs).further _ _
    rw [step_further, ih]

/-- The start of a line that stands behind a text. -/
theorem after_newline (cs : List Char) : ({} : Location).after (cs ++ ['\n']) =
    ({} : Location).further (1 + cs.count '\n') (cs.length + 1) := by
  have hline := line_after {} cs
  have hoffset := offset_after {} cs
  rw [after_append]
  show (({} : Location).after cs).step '\n' = _
  simp only [step, further, hline, hoffset, beq_self_eq_true, if_true, mk.injEq, true_and]
  omega

end Location

/-- Where a location of another script goes that stands behind this one and a line feed. -/
def Script.shift (s : Script) : Location → Location :=
  Location.further (1 + s.text.toList.count '\n') (s.text.toList.length + 1)

/-! ## The tokens of both scripts -/

namespace Scan

/-- A line feed goes on with a gap, and what follows it is scanned as if it stood alone. -/
theorem splitGap_newline {comment : Bool} {gap : List Char}
    (h : splitGap comment gap = (gap, [])) (cs : List Char) :
    splitGap comment (gap ++ '\n' :: cs) =
      (gap ++ '\n' :: (splitGap false cs).1, (splitGap false cs).2) := by
  induction gap generalizing comment with
  | nil => cases comment <;> rfl
  | cons c gap ih =>
    rcases splitGap_cons comment c with ⟨comment', hstep⟩ | ⟨-, hstep⟩
    · have hgap : splitGap comment' gap = (gap, []) := by
        rw [hstep gap] at h
        have hfront := (List.cons_eq_cons.mp (congrArg Prod.fst h)).2
        have hrest : (splitGap comment' gap).2 = [] := congrArg Prod.snd h
        exact Prod.ext hfront hrest
      rw [List.cons_append, hstep, ih hgap, List.cons_append]
    · rw [hstep gap] at h
      cases h

/-- The last gap of a text is a gap when it stands alone. -/
theorem splitGap_last (integers : Bool) (cs : List Char) :
    splitGap false (pieces integers cs).2 = ((pieces integers cs).2, []) := by
  fun_induction pieces integers cs with
  | case1 cs gap h =>
    obtain ⟨hcs, -⟩ := gap_of_splitGap h
    rw [List.append_nil] at hcs
    rw [← hcs] at h ⊢
    exact h
  | case2 cs gap c rest h m more last hm ih =>
    rw [hm] at ih
    exact ih

/-- No token goes on in a gap or in the next line. -/
theorem endsBefore_gap {gap : List Char} (h : splitGap false gap = (gap, [])) (cs : List Char)
    (k : Kind) : k.EndsBefore (gap ++ '\n' :: cs) := by
  obtain ⟨-, hgap⟩ := gap_of_splitGap h
  cases hgap with
  | nil =>
    refine Apart.endsBefore ?_ k
    simp [Apart, isSpace]
  | blank hc _ =>
    refine Apart.endsBefore ?_ k
    simpa [Apart] using isSpace_iff.mpr hc
  | comment _ _ _ =>
    intro c hc
    obtain rfl : '#' = c := Option.some.inj hc
    cases k with
    | sign s => cases s <;> rfl
    | _ => rfl

/-- The pieces of a text, all of them good, come first when a line feed and more follow. -/
theorem pieces_newline {integers : Bool} {cs : List Char}
    (hgood : ∀ p ∈ (pieces integers cs).1, p.kind.isBad = false) (more : List Char) :
    (pieces integers (cs ++ '\n' :: more)).1 = (pieces integers cs).1 ++
      (pieces integers ((pieces integers cs).2 ++ '\n' :: more)).1 := by
  have hends := endsBefore_gap (splitGap_last integers cs) more
  have hcuts := (cuts_pieces integers cs).swap hgood fun p _ => hends p.kind
  have hpieces := pieces_of_cuts hcuts
  have htext : join (pieces integers cs).1 ++ ((pieces integers cs).2 ++ '\n' :: more) =
      cs ++ '\n' :: more := by
    rw [← List.append_assoc, pieces_join]
  rw [htext] at hpieces
  rw [hpieces]

end Scan

namespace Script

open Parse

variable {s : Script}

theorem place_congr {s' : Script} (hfile : s'.file = s.file) (l : Location)
    (ps : List Scan.Piece) : s'.place l ps = s.place l ps := by
  induction ps generalizing l with
  | nil => rfl
  | cons p ps ih => rw [place, place, ih, hfile]

theorem place_further (lines characters : Nat) (l : Location) (ps : List Scan.Piece) :
    s.place (l.further lines characters) ps =
      (s.place l ps).map (Token.relocate (Location.further lines characters)) := by
  induction ps generalizing l with
  | nil => rfl
  | cons p ps ih =>
    rw [place, place, List.map_cons, Location.after_further, Location.after_further, ih]
    rfl

/-- A gap and a line feed in front only move the tokens. -/
theorem place_newline {gap : List Char} (h : Scan.splitGap false gap = (gap, []))
    (integers : Bool) (l : Location) (cs : List Char) :
    s.place l (Scan.pieces integers (gap ++ '\n' :: cs)).1 =
      s.place (l.after (gap ++ ['\n'])) (Scan.pieces integers cs).1 := by
  have hsplit := Scan.splitGap_newline h cs
  rcases hcs : Scan.splitGap false cs with ⟨front, _ | ⟨c, rest⟩⟩
  · rw [hcs] at hsplit
    have hnone : ∀ {ds front : List Char}, Scan.splitGap false ds = (front, []) →
        (Scan.pieces integers ds).1 = [] := by
      intro ds front hds
      rw [Scan.pieces]
      split
      · rfl
      · rename_i heq
        rw [hds] at heq
        cases heq
    rw [hnone hsplit, hnone hcs]
    rfl
  · rw [hcs] at hsplit
    rw [Scan.pieces_of_splitGap hsplit, Scan.pieces_of_splitGap hcs, place, place]
    have hgap : l.after (gap ++ '\n' :: front) = (l.after (gap ++ ['\n'])).after front := by
      rw [← Location.after_append]
      simp
    rw [hgap]

/-- This script, a line feed, and more. -/
def joined (s : Script) (more : String) : Script := { s with text := s.text ++ "\n" ++ more }

theorem toList_joined (s : Script) (more : String) :
    (s.joined more).text.toList = s.text.toList ++ '\n' :: more.toList := by
  show (s.text ++ "\n" ++ more).toList = _
  simp

/-- **The tokens of both scripts**, if those of the first are good. -/
theorem scan_joined (hgood : ∀ t ∈ s.scan, t.kind.isBad = false) (more : String) :
    (s.joined more).scan =
      s.scan ++ (scan { s with text := more }).map (Token.relocate s.shift) := by
  have hpieces : ∀ p ∈ (Scan.pieces s.integers s.text.toList).1, p.kind.isBad = false := by
    intro p hp
    have hkinds : kinds s.scan = _ := kinds_place s {} _
    have hmem : p.kind ∈ kinds s.scan := hkinds ▸ List.mem_map_of_mem hp
    obtain ⟨t, ht, hkind⟩ := List.mem_map.mp hmem
    rw [← hkind]
    exact hgood t ht
  have htext := Scan.pieces_join s.integers s.text.toList
  have hlast := Scan.splitGap_last s.integers s.text.toList
  unfold scan
  rw [toList_joined]
  show (s.joined more).place {}
    (Scan.pieces s.integers (s.text.toList ++ '\n' :: more.toList)).1 = _
  rw [Scan.pieces_newline hpieces, place_append, place_newline hlast, ← Location.after_append,
    ← List.append_assoc, htext, Location.after_newline, place_further]
  rw [@place_congr s (s.joined more) rfl, @place_congr s (s.joined more) rfl,
    @place_congr s { s with text := more } rfl]
  rfl

theorem finish_joined (s : Script) (more : String) :
    (s.joined more).finish = (finish { s with text := more }).relocate s.shift := by
  have hplace : ({} : Location).after (s.joined more).text.toList =
      s.shift (({} : Location).after more.toList) := by
    rw [toList_joined, List.append_cons, Location.after_append, Location.after_newline,
      Location.after_further]
    rfl
  unfold finish
  rw [hplace]
  rfl

/-- **One script behind another.**  Let a script be read, and let the first token of another one, if
there is one, be no semicolon.  Behind the script and a line feed the other one is read exactly if
it is read alone.  The statements are those of the two scripts, and those of the other one have
their places further down.  What is refused alone is refused for the same reason further down. -/
theorem parse_joined {limits : Limits} {p : Program} (h : s.parse limits = .ok p) (more : String)
    (hmore : ∀ t ∈ (scan { s with text := more }).head?, t.kind ≠ .sign .semicolon) :
    ((∃ q, (s.joined more).parse limits = .ok q) ↔
      ∃ q, parse { s with text := more } limits = .ok q) ∧
    (∀ q, parse { s with text := more } limits = .ok q →
      (s.joined more).parse limits = .ok (p ++ Stmt.relocateAll s.shift q)) ∧
    ∀ f, parse { s with text := more } limits = .error f →
      ∃ f', (s.joined more).parse limits = .error f' ∧ f'.fault = f.fault ∧
        f'.span = f.span.map (Span.relocate s.shift) := by
  obtain ⟨hgood, hprogram⟩ := good_of_parse h
  have halike : Alike s.shift (fun q q' => q' = p ++ Stmt.relocateAll s.shift q)
      (parse { s with text := more } limits) ((s.joined more).parse limits) := by
    have hnone : s.scan.find? (·.kind.isBad) = none := by
      rw [List.find?_eq_none]
      intro t ht
      simp [hgood t ht]
    unfold parse
    dsimp only
    rw [scan_joined hgood, List.find?_append, hnone, Option.none_or, List.find?_map, finish_joined]
    have hkind : (fun t : Token => t.kind.isBad) ∘ Token.relocate s.shift =
        fun t => t.kind.isBad := rfl
    rw [hkind]
    cases (scan { s with text := more }).find? (·.kind.isBad) with
    | some t => exact .error ⟨rfl, rfl⟩
    | none => exact program_append hprogram hmore
  generalize parse { s with text := more } limits = x, (s.joined more).parse limits = y
    at halike ⊢
  cases halike with
  | @ok q q' hq => exact ⟨⟨fun _ => ⟨q, rfl⟩, fun _ => ⟨q', rfl⟩⟩, by simp [hq], by simp⟩
  | @error f f' hf =>
    refine ⟨by simp, by simp, ?_⟩
    rintro _ ⟨rfl⟩
    exact ⟨f', rfl, hf.fault, hf.span⟩

/-- Ends with a block, and a comment in which a string seems to begin. -/
def commentSample : Script := { text := "\x7b speak x; \x7d # \"" }

/-- What stands behind the comment. -/
def loopSample : Script := { text := "loop speak \"\";" }

theorem parse_joined_commentSample : ∃ p q, commentSample.parse .small = .ok p ∧
    loopSample.parse .small = .ok q ∧ (commentSample.joined loopSample.text).parse .small =
      .ok (p ++ Stmt.relocateAll (Location.further 1 17) q) := by
  have hfirst : (commentSample.parse .small).toBool = true := by decide +kernel
  have hsecond : (loopSample.parse .small).toBool = true := by decide +kernel
  have hhead : loopSample.scan.head?.map Token.kind = some (.keyword .loop) := by decide +kernel
  cases hp : commentSample.parse .small with
  | error f =>
    rw [hp] at hfirst
    cases hfirst
  | ok p =>
    cases hq : loopSample.parse .small with
    | error f =>
      rw [hq] at hsecond
      cases hsecond
    | ok q =>
      have hmore : ∀ t ∈ loopSample.scan.head?, t.kind ≠ .sign .semicolon := by
        intro t ht
        rw [Option.mem_def.mp ht] at hhead
        rw [Option.some.inj hhead]
        simp
      exact ⟨p, q, rfl, rfl, (parse_joined hp loopSample.text hmore).2.1 q hq⟩

end Script

end DialogueScript
