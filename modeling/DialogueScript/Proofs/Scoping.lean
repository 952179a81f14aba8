import DialogueScript.Proofs.Blocks
import DialogueScript.Proofs.Operations
import DialogueScript.Proofs.Stops

/-!
# Names that are declared before they are used

* `Stmt.wellScoped` — every name that a statement uses is declared before it.  A declaration and a
  line of input declare a name for the statements after them in the same row; what is declared
  inside a block, a branch or a loop does not count after it;
* `keepsBound` — a frame never loses a name, so what is bound stays bound, through blocks that
  complete or stop, and with either kind of scopes;
* `Comes.binds` — whatever statement an execution comes to, the names declared there are bound;
* `Program.run_of_wellScoped` — a run that ends at the first failure never fails to find a variable,
  if its program is well scoped.
-/

namespace DialogueScript

/-! ## The judgement -/

/-- The names of an expression, those that are assigned included. -/
def Expr.names : Expr → List String
  | .assign n v _ => n :: v.names
  | .binary l _ r _ => l.names ++ r.names
  | .name n _ => [n]
  | .literal _ _ | .stray _ _ => []

/-- All names of the expression are declared. -/
def Expr.wellScoped (declared : List String) (e : Expr) : Bool := e.names.all declared.contains

/-- The names that a statement declares for the statements after it. -/
def Stmt.declares : Stmt → List String
  | .declare n _ _ | .input n _ => [n]
  | _ => []

mutual

/-- All names that the statement uses are declared before it. -/
def Stmt.wellScoped (declared : List String) : Stmt → Bool
  | .block body _ => Stmt.wellScopedAll declared body
  | .express e _ | .speak e _ | .declare _ e _ => e.wellScoped declared
  | .branch c body _ => c.wellScoped declared && body.wellScoped declared
  | .loop body _ => body.wellScoped declared
  | .input _ _ | .exit _ | .stray _ _ => true

def Stmt.wellScopedAll (declared : List String) : List Stmt → Bool
  | [] => true
  | stmt :: rest =>
    stmt.wellScoped declared && Stmt.wellScopedAll (stmt.declares ++ declared) rest

end

theorem Expr.wellScoped_iff {declared : List String} {e : Expr} :
    e.wellScoped declared = true ↔ ∀ n ∈ e.names, n ∈ declared := by
  simp [wellScoped]

/-! ## What is bound stays bound -/

theorem Bindings.names_subset_setAll (bs new : Bindings) : bs.names ⊆ (bs.setAll new).names := by
  induction new generalizing bs with
  | nil => exact List.Subset.refl _
  | cons b new ih =>
    have hset : bs.names ⊆ (bs.set b.1 b.2).names := by
      rw [names_set]
      split
      · exact List.Subset.refl _
      · exact List.subset_append_left _ _
    exact List.Subset.trans hset (ih _)

/-- A chain shows a name exactly when one of its frames binds it. -/
theorem Chain.lookup_isSome_iff {fs : List Frame} {n : String} :
    (Chain.lookup fs n).isSome = true ↔ ∃ f ∈ fs, n ∈ f.bindings.names := by
  induction fs with
  | nil => simp [Chain.lookup]
  | cons f fs ih =>
    rw [Chain.lookup_cons, Option.isSome_or, Bool.or_eq_true, ih]
    have hf : (f.bindings.get? n).isSome = true ↔ n ∈ f.bindings.names := by
      rw [Option.isSome_iff_ne_none, ne_eq, Bindings.get?_eq_none_iff, not_not]
    simp [hf]

/-- The frame binds all names that it did before. -/
def Frame.Grows (before after : Frame) : Prop := before.bindings.names ⊆ after.bindings.names

theorem Frame.Grows.refl (f : Frame) : Frame.Grows f f := List.Subset.refl _

theorem Frame.Grows.set (f : Frame) (n : String) (v : Value) : f.Grows (f.set n v) :=
  Bindings.names_subset_setAll f.bindings [(n, v)]

/-- Frames one by one, each of which binds all names that it did before. -/
abbrev Chain.Grows : List Frame → List Frame → Prop := List.Forall₂ Frame.Grows

namespace Chain.Grows

theorem refl (fs : List Frame) : Chain.Grows fs fs := List.forall₂_same.mpr fun f _ => .refl f

theorem trans {fs gs hs : List Frame} (hfg : Chain.Grows fs gs) (hgh : Chain.Grows gs hs) :
    Chain.Grows fs hs := by
  induction hfg generalizing hs with
  | nil => exact hgh
  | cons hf _ ih =>
    cases hgh with
    | cons hg hrest => exact .cons (List.Subset.trans hf hg) (ih hrest)

theorem lookup {fs gs : List Frame} (h : Chain.Grows fs gs) {n : String}
    (hn : (Chain.lookup fs n).isSome = true) : (Chain.lookup gs n).isSome = true := by
  rw [lookup_isSome_iff] at hn ⊢
  induction h with
  | nil => exact hn
  | cons hf _ ih =>
    obtain ⟨f, hmem, hn⟩ := hn
    rcases List.mem_cons.mp hmem with rfl | hmem
    · exact ⟨_, List.mem_cons_self, hf hn⟩
    · obtain ⟨g, hg, hn⟩ := ih ⟨f, hmem, hn⟩
      exact ⟨g, List.mem_cons_of_mem _ hg, hn⟩

end Chain.Grows

namespace Environment

variable {e : Environment}

theorem grows_define (e : Environment) (n : String) (v : Value) :
    Chain.Grows e.frames (e.define n v).frames :=
  .cons (.set e.top n _) (Chain.Grows.refl e.below)

theorem grows_assign {e' : Environment} {n : String} {v : Value} (h : e.assign? n v = some e') :
    Chain.Grows e.frames e'.frames := by
  cases hscoping : e.scoping with
  | lexical =>
    have hframes := reassigned_assign (List.mem_singleton.mpr rfl) hscoping h
    refine hframes.imp fun f g hf => ?_
    show f.bindings.names ⊆ g.bindings.names
    rw [hf.names]
    exact List.Subset.refl _
  | merge =>
    simp only [assign?, hscoping, Option.some.injEq] at h
    subst h
    exact grows_define e n v

/-- Leaving the innermost frame takes no name from the frames below it. -/
theorem grows_pop {p : Popped} (h : e.pop? = some p) : Chain.Grows e.below p.env.frames := by
  unfold pop? at h
  split at h
  · cases h
  · rename_i outer rest hbelow
    cases h
    rw [hbelow]
    exact .cons (Bindings.names_subset_setAll _ _) (Chain.Grows.refl rest)

end Environment

/-- No step of a run unbinds a name. -/
theorem keepsBound : Respected fun s t => Chain.Grows s.env.frames t.env.frames where
  refl s := Chain.Grows.refl _
  trans hst htu := hst.trans htu
  define s n v := Environment.grows_define s.env n v
  assign h := Environment.grows_assign h
  readLine s n := by
    obtain ⟨v, hv⟩ := s.readLine_env n
    rw [hv]
    exact Environment.grows_define s.env n v
  print _ _ := Chain.Grows.refl _
  record _ _ := Chain.Grows.refl _
  leave {s t} h := by
    have hbelow : Chain.Grows s.env.frames t.env.below := (List.forall₂_cons.mp h).2
    rw [Session.pop_env]
    split
    · rename_i hpop
      -- there is a frame below the one of the block
      unfold Environment.pop? at hpop
      split at hpop
      · rename_i hnil
        rw [hnil] at hbelow
        cases hbelow
      · cases hpop
    · rename_i p hpop
      exact hbelow.trans (Environment.grows_pop hpop)
  drop {s t} h := by
    have hbelow : Chain.Grows s.env.frames t.env.below := (List.forall₂_cons.mp h).2
    show Chain.Grows s.env.frames (t.env.unwindTo s.env.depth).frames
    rw [Environment.frames_unwindTo hbelow.length_eq.symm]
    exact hbelow

/-- All these names are bound. -/
def Session.Binds (s : Session) (names : List String) : Prop :=
  ∀ n ∈ names, (s.env.lookup n).isSome = true

theorem Session.Binds.mono {s t : Session} {names : List String} (h : s.Binds names)
    (hst : Chain.Grows s.env.frames t.env.frames) : t.Binds names :=
  fun n hn => hst.lookup (h n hn)

theorem Session.binds_define {s : Session} {names : List String} (h : s.Binds names) (n : String)
    (v : Value) : (s.define n v).Binds (n :: names) := by
  intro m hm
  have hlookup := s.env.lookup_define n m v
  show ((s.env.define n v).lookup m).isSome = true
  rw [hlookup]
  split
  · rfl
  · rename_i hne
    exact h m ((List.mem_cons.mp hm).resolve_left (Ne.symm hne))

variable {rounds depth : Nat} {s t : Session} {declared : List String}

/-- A statement that completes has declared its names. -/
theorem binds_of_completed {stmt : Stmt} (hs : s.Binds declared)
    (h : execute rounds depth stmt s = (t, none)) : t.Binds (stmt.declares ++ declared) := by
  have hgrows := keepsBound.execute rounds depth stmt s
  rw [h] at hgrows
  cases depth with
  | zero => cases h
  | succ depth =>
    cases stmt with
    | declare n e span =>
      rw [execute] at h
      split at h
      · cases h
        exact Session.binds_define hs n _
      · cases h
    | input n span =>
      cases h
      obtain ⟨v, hv⟩ := s.readLine_env n
      have hdefine := Session.binds_define hs n v
      intro m hm
      rw [hv]
      exact hdefine m hm
    | _ => exact hs.mono hgrows

/-! ## What an execution comes to -/

theorem binds_of_runAll {before after : List Stmt} {stmt : Stmt}
    (hp : Stmt.wellScopedAll declared (before ++ stmt :: after) = true) (hs : s.Binds declared)
    (h : runAll (execute rounds depth) before s = (t, none)) :
    ∃ names, stmt.wellScoped names = true ∧ t.Binds names := by
  induction before generalizing s declared with
  | nil =>
    cases h
    exact ⟨declared, (Bool.and_eq_true_iff.mp hp).1, hs⟩
  | cons first before ih =>
    have hrest := (Bool.and_eq_true_iff.mp hp).2
    rw [runAll] at h
    split at h
    · rename_i u hfirst
      exact ih hrest (binds_of_completed hs hfirst) h
    · cases h

theorem binds_of_rounds {n : Nat} {body : Stmt} (hs : s.Binds declared)
    (h : Rounds (execute rounds depth body) n s t) : t.Binds declared := by
  induction h with
  | zero => exact hs
  | @succ n s t u hstep _ ih =>
    have hgrows := keepsBound.execute rounds depth body s
    rw [hstep] at hgrows
    exact ih (hs.mono hgrows)

/-- **Wherever an execution comes to, the declared names are bound.** -/
theorem Comes.binds {depth' : Nat} {stmt stmt' : Stmt}
    (h : Comes rounds depth stmt s depth' stmt' t) (hstmt : stmt.wellScoped declared = true)
    (hs : s.Binds declared) :
    ∃ names, stmt'.wellScoped names = true ∧ t.Binds names := by
  induction h generalizing declared with
  | here => exact ⟨declared, hstmt, hs⟩
  | @block depth depth' before after stmt stmt' span s t u hbefore _ ih =>
    have hpush : (s.push "block").Binds declared := fun n hn =>
      (congrArg Option.isSome (s.env.lookup_push "block" n)).trans (hs n hn)
    obtain ⟨names, hnames, ht⟩ := binds_of_runAll hstmt hpush hbefore
    exact ih hnames ht
  | @branch depth depth' c body stmt' span s t u v hc _ _ ih =>
    have hgrows := (keepsBound.on fun _ => True).evaluate depth (fun _ _ => trivial) (e := c) s
    rw [hc] at hgrows
    exact ih (Bool.and_eq_true_iff.mp hstmt).2 (hs.mono hgrows)
  | loop _ hrounds _ ih => exact ih hstmt (binds_of_rounds hs hrounds)

/-! ## Failures -/

theorem Fault.code_eq_unbound {fault : Fault} (h : fault.code = "E401") :
    ∃ n, fault = .unbound n := by
  cases fault with
  | unbound n => exact ⟨n, rfl⟩
  | _ => simp [Fault.code] at h

/-- The reason to stop is a variable that is not found. -/
def Stop.IsUnbound : Stop → Prop
  | .failure f => ∃ n, f.fault = .unbound n
  | .exit | .tooDeep | .crash _ => False

theorem Stop.isUnbound_of_failure {why : Stop} {stmt : Stmt} {f : Failure} {n : String}
    (h : why.failure? stmt = some f) (hn : f.fault = .unbound n) : why.IsUnbound := by
  cases why with
  | failure g =>
    cases h
    exact ⟨n, hn⟩
  | tooDeep =>
    cases h
    cases hn
  | exit => cases h
  | crash c => cases h

theorem Failure.fault_quoting (f : Failure) (source : Option String) :
    (f.quoting source).fault = f.fault := by
  unfold quoting
  split <;> rfl

theorem Failure.span_quoting (f : Failure) (source : Option String) :
    (f.quoting source).span = f.span := by
  unfold quoting
  split <;> rfl

theorem Value.numbers?_bound {l r : Value} {why : Stop} (h : Value.numbers? l r = .error why) :
    ¬ why.IsUnbound := by
  rcases Value.numbers?_eq_error_iff.mp h with h | ⟨-, h⟩
  · obtain ⟨text, -, -, rfl⟩ := Value.number?_eq_error_iff.mp h
    exact id
  · obtain ⟨text, -, -, rfl⟩ := Value.number?_eq_error_iff.mp h
    exact id

theorem Operator.operands_bound {op : Operator} {l r : Value} {span : Option Span} {why : Stop}
    (h : operands op l r span = .error why) : ¬ why.IsUnbound := by
  rcases bind_eq_error h with h | ⟨xy, -, h⟩
  · exact Value.numbers?_bound h
  · cases xy with
    | none =>
      cases h
      rintro ⟨n, ⟨⟩⟩
    | some xy => cases h

/-- No operation looks for a variable. -/
theorem Operator.apply_bound {op : Operator} {l r : Value} {span : Option Span} {why : Stop}
    (h : op.apply l r span = .error why) : ¬ why.IsUnbound := by
  cases op with
  | plus =>
    simp only [apply, add] at h
    split at h
    · cases h
    · rcases bind_eq_error h with h | ⟨xy, -, h⟩
      · exact Value.numbers?_bound h
      · cases xy <;> cases h
    · cases h
  | minus =>
    rcases bind_eq_error h with h | ⟨xy, -, h⟩
    · exact operands_bound h
    · cases h
  | times =>
    rcases bind_eq_error h with h | ⟨xy, -, h⟩
    · exact operands_bound h
    · cases h
  | dividedBy =>
    rcases bind_eq_error h with h | ⟨⟨x, y⟩, -, h⟩
    · exact operands_bound h
    · simp only at h
      split at h
      · cases h
        rintro ⟨n, ⟨⟩⟩
      · cases h
  | equals => cases h
  | unknown shown =>
    cases h
    rintro ⟨n, ⟨⟩⟩

theorem valueOf_bound {e : Expr} {why : Stop} (he : e.wellScoped declared = true)
    (hs : s.Binds declared) (h : valueOf s.env.lookup depth e = .error why) : ¬ why.IsUnbound := by
  rw [Expr.wellScoped_iff] at he
  induction e generalizing depth why with
  | assign n v span _ =>
    cases depth with
    | zero =>
      cases h
      exact id
    | succ depth =>
      cases h
      rintro ⟨m, ⟨⟩⟩
  | binary l op r span ihl ihr =>
    cases depth with
    | zero =>
      cases h
      exact id
    | succ depth =>
      rw [valueOf_binary] at h
      split at h
      · rename_i hl
        cases h
        exact ihl (fun n hn => he n (List.mem_append_left _ hn)) hl
      · split at h
        · rename_i hr
          cases h
          exact ihr (fun n hn => he n (List.mem_append_right _ hn)) hr
        · exact Operator.apply_bound h
  | literal v span =>
    cases depth with
    | zero =>
      cases h
      exact id
    | succ depth => cases h
  | name n span =>
    cases depth with
    | zero =>
      cases h
      exact id
    | succ depth =>
      have hn := hs n (he n List.mem_cons_self)
      rw [valueOf_name] at h
      split at h
      · cases h
      · rename_i hnone
        rw [hnone] at hn
        cases hn
  | stray label fields =>
    cases depth with
    | zero =>
      cases h
      exact id
    | succ depth =>
      cases h
      exact id

/-- With either kind of scopes, a name that is bound can be assigned. -/
theorem Environment.assign?_of_bound {e : Environment} {n : String} (v : Value)
    (h : (e.lookup n).isSome = true) : (e.assign? n v).isSome = true := by
  unfold assign?
  split
  · rfl
  · have hrebind : (Chain.rebind? e.frames n (e.stored v)).isSome = true := by
      rw [Chain.rebind?_isSome]
      exact h
    obtain ⟨gs, hgs⟩ := Option.isSome_iff_exists.mp hrebind
    have hlength := Chain.length_of_rebind? hgs
    rw [hgs]
    cases gs with
    | nil => cases hlength
    | cons top below => rfl

theorem evaluate_bound {e : Expr} {why : Stop} (he : e.wellScoped declared = true)
    (hs : s.Binds declared) (h : (evaluate depth e s).1 = .error why) : ¬ why.IsUnbound := by
  unfold evaluate at h
  split at h
  · rename_i n v span
    have hnames := Expr.wellScoped_iff.mp he
    have hv : v.wellScoped declared = true :=
      Expr.wellScoped_iff.mpr fun m hm => hnames m (List.mem_cons_of_mem _ hm)
    split at h
    · rename_i hvalue
      cases h
      exact valueOf_bound hv hs hvalue
    · rename_i x _
      have hassign := Environment.assign?_of_bound x (hs n (hnames n List.mem_cons_self))
      split at h
      · cases h
      · rename_i hnone
        rw [hnone] at hassign
        cases hassign
  · exact valueOf_bound he hs h

theorem truth_bound {v : Value} {span : Option Span} {why : Stop}
    (h : truth v span = .error why) : ¬ why.IsUnbound := by
  unfold truth at h
  split at h
  · split at h
    · cases h
    · split at h
      · cases h
      · cases h
        rintro ⟨n, ⟨⟩⟩
  · cases h
    rintro ⟨n, ⟨⟩⟩

/-- A statement whose names are bound stops for other reasons. -/
theorem StopsAt.bound {stmt : Stmt} {why : Stop} (h : StopsAt rounds depth stmt s why)
    (hstmt : stmt.wellScoped declared = true) (hs : s.Binds declared) : ¬ why.IsUnbound := by
  cases h with
  | tooDeep => exact id
  | express h => exact evaluate_bound hstmt hs h
  | declare h => exact valueOf_bound hstmt hs h
  | speak h => exact valueOf_bound hstmt hs h
  | condition h => exact evaluate_bound (Bool.and_eq_true_iff.mp hstmt).1 hs h
  | truth _ h => exact truth_bound h
  | endless _ => exact id
  | exit => exact id
  | stray => exact id

theorem execute_bound {stmt : Stmt} {why : Stop} (hstmt : stmt.wellScoped declared = true)
    (hs : s.Binds declared) (h : (execute rounds depth stmt s).2 = some why) :
    ¬ why.IsUnbound := by
  obtain ⟨depth', stmt', t, hcomes, hat⟩ := execute_stop_iff.mp h
  obtain ⟨names, hnames, ht⟩ := hcomes.binds hstmt hs
  exact hat.bound hnames ht

namespace Program

/-- A run that ends at the first failure executes statements whose names are bound. -/
theorem Executes.binds {source : Option String} {limits : Limits} {p : List Stmt}
    {failures : List Failure} {stmt : Stmt} (h : Executes .abort source limits p failures s stmt t)
    (hp : Stmt.wellScopedAll declared p = true) (hs : s.Binds declared) :
    ∃ names, stmt.wellScoped names = true ∧ t.Binds names := by
  induction h generalizing declared with
  | here => exact ⟨declared, (Bool.and_eq_true_iff.mp hp).1, hs⟩
  | completed hstep _ ih =>
    exact ih (Bool.and_eq_true_iff.mp hp).2 (binds_of_completed hs hstep)
  | failed _ _ hgo _ _ => cases hgo

/-- **A program that declares its names before it uses them never fails to find one**, if its run
ends at the first failure, whatever the scopes, the storage and the input. -/
theorem run_of_wellScoped {p : Program} (hp : Stmt.wellScopedAll [] p = true) {limits : Limits}
    {settings : Settings} (hpolicy : settings.policy = .abort) (source : Option String)
    (input : String) {o : Outcome}
    (h : (p.run limits settings source input).1 = .ok o) :
    ∀ f ∈ o.failures, f.diagnostic.code ≠ "E401" := by
  intro g hg hcode
  unfold run at h
  rw [hpolicy] at h
  rcases mem_failures h hg with hg | ⟨stmt, t, why, f, hexec, hwhy, hf, rfl⟩
  · cases hg
  · have hstart : (Session.start settings input).Binds [] := fun n hn => absurd hn List.not_mem_nil
    obtain ⟨names, hnames, ht⟩ := hexec.binds hp hstart
    obtain ⟨n, hn⟩ := Fault.code_eq_unbound hcode
    exact execute_bound hnames ht hwhy (Stop.isUnbound_of_failure hf (f.fault_quoting source ▸ hn))

/-- Reads answers up to an empty one, and says at the end what none of them can be. -/
def answersSample : Program :=
  [.input "answer" none,
    .loop (.block [.declare "again" (.binary (.name "answer" none) .equals
        (.literal (.text "more") none) none) none,
      .branch (.name "again" none) (.block [.input "answer" none,
        .express (.assign "again" (.name "answer" none) none) none] none) none,
      .speak (.name "again" none) none,
      .branch (.name "answer" none) (.exit none) none] none) none]

theorem run_answersSample :
    Stmt.wellScopedAll [] answersSample = true ∧
      ∃ o, (run answersSample .small Settings.ofFirstRelease none "more\nless\n").1 = .ok o ∧
        o.failures ≠ [] ∧ ∀ f ∈ o.failures, f.diagnostic.code ≠ "E401" := by
  have hscoped : Stmt.wellScopedAll [] answersSample = true := by decide
  have hrun : (run answersSample .small Settings.ofFirstRelease none "more\nless\n").1 =
      .ok { failures := [{ fault := .notBoolean "'less'" }] } := by rfl
  exact ⟨hscoped, _, hrun, by simp, run_of_wellScoped hscoped rfl none "more\nless\n" hrun⟩

end Program

end DialogueScript
