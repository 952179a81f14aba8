import DialogueScript.Token.Stream

/-!
# Streams that are read in turns

Any number of streams over one script may be opened, advanced and read to their ends in any order.
What one of them yields does not depend on the others.

* `Stream.items` — everything that is left of a stream, the failure at its end included;
* `Stream.items_next` — the next item is the first of what is left;
* `Script.alone_eq` — what a stream of each mode yields when nobody else stands beside it;
* `Streams.Watched` — streams, and what has come from each of them since it was opened;
* `Streams.affects_use` — a use of a stream takes from what is left of it, and touches no other;
* `Streams.watch_interleaved` — **every stream yields what it yields alone, whatever happens
  between**, and nothing after its end.
-/

namespace DialogueScript

/-- What a stream yields: a token, or the failure that ends it. -/
abbrev Stream.Item := Except Failure Token

/-- Everything that is left of a stream. -/
def Stream.items (s : Script) (st : Stream) : List Stream.Item :=
  (st.drain s).1.map .ok ++ (st.drain s).2.1.toList.map .error

namespace Stream

variable {s : Script} {st st' : Stream}

/-- More items than this cannot be left. -/
def room (st : Stream) : Nat := if st.ended then 0 else st.rest.length + 1

theorem room_stop (st : Stream) : st.stop.room = 0 := rfl

/-- The token that a stream comes to behind a gap. -/
def tokenBehind (s : Script) (st : Stream) (gap : List Char) (m : Scan.Munch) : Token :=
  ⟨m.kind, String.ofList m.lexeme,
    ⟨s.file, st.place.after gap, (st.place.after gap).after m.lexeme⟩⟩

/-- Where the text ends, only a stream of the closed mode has one more token. -/
theorem next_of_gap {gap : List Char} (hopen : st.ended = false)
    (h : Scan.splitGap false st.rest = (gap, [])) :
    st.next s = (if st.mode = .closed then
      some (.ok ⟨.finish, "", ⟨s.file, st.place.after gap, st.place.after gap⟩⟩) else none,
      st.stop) := by
  unfold next
  rw [hopen, h]
  cases st.mode <;> rfl

/-- A piece that is no token ends a stream, unless it yields all pieces. -/
theorem next_of_bad {gap rest : List Char} {c : Char} (hopen : st.ended = false)
    (h : Scan.splitGap false st.rest = (gap, c :: rest))
    (hbad : ((Scan.munch s.integers c rest).kind.isBad && st.mode != .pieces) = true) :
    st.next s = (some (.error (s.badToken (st.tokenBehind s gap (Scan.munch s.integers c rest)))),
      st.stop) := by
  unfold next
  rw [hopen, h]
  dsimp only
  rw [hbad]
  rfl

theorem next_of_good {gap rest : List Char} {c : Char} (hopen : st.ended = false)
    (h : Scan.splitGap false st.rest = (gap, c :: rest))
    (hgood : ((Scan.munch s.integers c rest).kind.isBad && st.mode != .pieces) = false) :
    st.next s = (some (.ok (st.tokenBehind s gap (Scan.munch s.integers c rest))),
      { st with
        rest := (Scan.munch s.integers c rest).rest
        place := (st.place.after gap).after (Scan.munch s.integers c rest).lexeme }) := by
  unfold next
  rw [hopen, h]
  dsimp only
  rw [hgood]
  rfl

/-- A token, or nothing more, or the end with a failure. -/
inductive Advances (st : Stream) : Option Item → Stream → Prop
  | token (t : Token) {st' : Stream} (hroom : st'.room < st.room) (hmode : st'.mode = st.mode) :
      Advances st (some (.ok t)) st'
  | failure (f : Failure) {st' : Stream} (hended : st'.ended = true) (hmode : st'.mode = st.mode) :
      Advances st (some (.error f)) st'
  | nothing {st' : Stream} (hended : st'.ended = true) (hmode : st'.mode = st.mode) :
      Advances st none st'

theorem next_advances (s : Script) (st : Stream) : Advances st (st.next s).1 (st.next s).2 := by
  cases hended : st.ended with
  | true =>
    rw [next_of_ended hended]
    exact .nothing hended rfl
  | false =>
    have hroom : st.room = st.rest.length + 1 := by simp [room, hended]
    rcases hsplit : Scan.splitGap false st.rest with ⟨gap, _ | ⟨c, rest⟩⟩
    · rw [next_of_gap hended hsplit]
      split
      · exact .token _ (by rw [room_stop, hroom]; exact Nat.succ_pos _) rfl
      · exact .nothing rfl rfl
    · cases hbad : (Scan.munch s.integers c rest).kind.isBad && st.mode != .pieces with
      | true =>
        rw [next_of_bad hended hsplit hbad]
        exact .failure _ rfl rfl
      | false =>
        have hgap := Scan.length_rest_le false st.rest
        have hmunch := Scan.length_munch_rest_lt s.integers c rest
        rw [hsplit] at hgap
        rw [next_of_good hended hsplit hbad]
        refine .token _ ?_ rfl
        rw [hroom]
        simp only [room, hended, Bool.false_eq_true, if_false]
        exact Nat.succ_lt_succ (Nat.lt_of_lt_of_le hmunch hgap)

/-- A bound beyond the room makes no difference. -/
theorem drainUpTo_eq (n m : Nat) (hn : st.room < n) (hm : st.room < m) :
    st.drainUpTo s n = st.drainUpTo s m := by
  induction n generalizing m st with
  | zero => omega
  | succ n ih =>
    obtain ⟨m, rfl⟩ : ∃ m', m = m' + 1 := ⟨m - 1, by omega⟩
    have hnext := next_advances s st
    unfold drainUpTo
    generalize st.next s = next at hnext
    obtain ⟨item, st'⟩ := next
    cases hnext with
    | token t hroom _ =>
      dsimp only at hroom ⊢
      rw [ih m (by omega) (by omega)]
    | failure f _ _ => rfl
    | nothing _ _ => rfl

theorem room_lt_bound (st : Stream) : st.room < st.rest.length + 2 := by
  unfold room
  split <;> omega

theorem drain_of_none (h : st.next s = (none, st')) : st.drain s = ([], none, st') := by
  rw [drain, drainUpTo, h]

theorem drain_of_error {f : Failure} (h : st.next s = (some (.error f), st')) :
    st.drain s = ([], some f, st') := by
  rw [drain, drainUpTo, h]

/-- Reading on to the end after a token. -/
theorem drain_of_ok {t : Token} (h : st.next s = (some (.ok t), st')) :
    st.drain s = (t :: (st'.drain s).1, (st'.drain s).2) := by
  have hless : st'.room < st.room := by
    have hnext := next_advances s st
    rw [h] at hnext
    cases hnext with
    | token _ hroom _ => exact hroom
  have hbound := room_lt_bound st
  have hrest := drainUpTo_eq (s := s) (st.rest.length + 1) (st'.rest.length + 2) (by omega)
    (room_lt_bound st')
  rw [drain, drainUpTo, h]
  dsimp only
  rw [hrest]
  rfl

theorem items_of_none (h : st.next s = (none, st')) : st.items s = [] := by
  rw [items, drain_of_none h]
  rfl

theorem items_of_ended (h : st.ended = true) : st.items s = [] := items_of_none (next_of_ended h)

/-- The next item is the first of what is left. -/
theorem items_of_next {i : Item} (h : st.next s = (some i, st')) :
    st.items s = i :: st'.items s := by
  have hnext := next_advances s st
  rw [h] at hnext
  cases hnext with
  | token t _ _ =>
    rw [items, drain_of_ok h]
    rfl
  | failure f hended _ =>
    rw [items_of_ended hended, items, drain_of_error h]
    rfl

theorem mode_next (s : Script) (st : Stream) : (st.next s).2.mode = st.mode := by
  have hnext := next_advances s st
  generalize (st.next s).1 = item at hnext
  cases hnext with
  | token _ _ hmode => exact hmode
  | failure _ _ hmode => exact hmode
  | nothing _ hmode => exact hmode

/-- What is left is the next item, if there is one, and what is left then. -/
theorem items_next (s : Script) (st : Stream) :
    st.items s = (st.next s).1.toList ++ (st.next s).2.items s := by
  have hnext := next_advances s st
  rcases h : st.next s with ⟨_ | item, st'⟩
  · rw [h] at hnext
    cases hnext with
    | nothing hended _ => rw [items_of_none h, items_of_ended hended]; rfl
  · exact items_of_next h

/-- What is read to its end has ended. -/
theorem drain_ends (s : Script) (st : Stream) :
    (st.drain s).2.2.ended = true ∧ (st.drain s).2.2.mode = st.mode := by
  induction hroom : st.room using Nat.strongRecOn generalizing st with
  | _ room ih =>
    have hadvances := next_advances s st
    rcases hnext : st.next s with ⟨item, st'⟩
    rw [hnext] at hadvances
    cases hadvances with
    | token t hless hmode =>
      obtain ⟨hended, hmode'⟩ := ih st'.room (hroom ▸ hless) st' rfl
      rw [drain_of_ok hnext]
      exact ⟨hended, hmode'.trans hmode⟩
    | failure f hended hmode =>
      rw [drain_of_error hnext]
      exact ⟨hended, hmode⟩
    | nothing hended hmode =>
      rw [drain_of_none hnext]
      exact ⟨hended, hmode⟩

end Stream

/-! ## One stream alone -/

/-- What a stream of a mode yields when it is read from its start to its end. -/
def Script.alone (s : Script) (mode : StreamMode) : List Stream.Item :=
  (s.openStream mode).items s

namespace Script

variable (s : Script) {finish t : Token} {mode : StreamMode} {ts : List Token}

/-- What a stream yields when these tokens are left of the text, and its end. -/
def yields (finish : Token) (mode : StreamMode) (ts : List Token) : List Stream.Item :=
  match mode with
  | .pieces => ts.map .ok
  | .tokens => (ts.takeWhile (!·.kind.isBad)).map .ok ++
      ((ts.find? (·.kind.isBad)).map fun t => .error (s.badToken t)).toList
  | .closed => (ts.takeWhile (!·.kind.isBad)).map .ok ++
      [((ts.find? (·.kind.isBad)).map fun t => .error (s.badToken t)).getD (.ok finish)]

theorem yields_nil : s.yields finish mode [] = if mode = .closed then [.ok finish] else [] := by
  cases mode <;> rfl

theorem yields_bad (h : (t.kind.isBad && mode != .pieces) = true) :
    s.yields finish mode (t :: ts) = [.error (s.badToken t)] := by
  obtain ⟨hbad, hmode⟩ := Bool.and_eq_true_iff.mp h
  cases mode with
  | pieces => cases hmode
  | tokens => simp [yields, hbad]
  | closed => simp [yields, hbad]

theorem yields_good (h : (t.kind.isBad && mode != .pieces) = false) :
    s.yields finish mode (t :: ts) = .ok t :: s.yields finish mode ts := by
  cases mode with
  | pieces => rfl
  | tokens =>
    have hgood : t.kind.isBad = false := by simpa using h
    simp [yields, hgood]
  | closed =>
    have hgood : t.kind.isBad = false := by simpa using h
    simp [yields, hgood]

/-- What is left of a stream that has come to some place of the text. -/
theorem items_at (mode : StreamMode) (cs : List Char) (l : Location) :
    Stream.items s { mode, rest := cs, place := l } =
      s.yields ⟨.finish, "", ⟨s.file, l.after cs, l.after cs⟩⟩ mode
        (s.place l (Scan.pieces s.integers cs).1) := by
  fun_induction Scan.pieces s.integers cs generalizing l with
  | case1 cs gap h =>
    obtain rfl : gap = cs := by
      have happend := Scan.gap_append_rest false cs
      rw [h, List.append_nil] at happend
      exact happend
    have hnext : Stream.next s { mode, rest := gap, place := l } = _ := Stream.next_of_gap rfl h
    rw [place, yields_nil]
    split
    · rename_i hmode
      rw [if_pos hmode] at hnext
      rw [Stream.items_of_next hnext, Stream.items_of_ended rfl]
    · rename_i hmode
      rw [if_neg hmode] at hnext
      exact Stream.items_of_none hnext
  | case2 cs gap c rest h m more last hm ih =>
    have happend := Scan.gap_append_rest false cs
    rw [h, ← Scan.munch_lexeme_append_rest s.integers c rest] at happend
    have hplace : l.after cs = ((l.after gap).after m.lexeme).after m.rest := by
      rw [← happend, Location.after_append, Location.after_append]
    rw [hm] at ih
    rw [place, hplace]
    let st : Stream := { mode, rest := cs, place := l }
    cases hbad : m.kind.isBad && mode != .pieces with
    | true =>
      have hnext : st.next s = _ := Stream.next_of_bad rfl h hbad
      rw [yields_bad s hbad, Stream.items_of_next hnext, Stream.items_of_ended rfl]
      rfl
    | false =>
      have hnext : st.next s = _ := Stream.next_of_good rfl h hbad
      rw [yields_good s hbad, Stream.items_of_next hnext, ← ih]
      rfl

/-- A stream alone yields what its mode says of all tokens of the script. -/
theorem alone_eq (mode : StreamMode) : s.alone mode = s.yields s.finish mode s.scan :=
  s.items_at mode s.text.toList {}

end Script

/-! ## Streams together -/

namespace Streams

/-- A stream as its reader knows it: how it was opened, and what it has yielded since. -/
structure Reading where
  mode : StreamMode
  items : List Stream.Item := []

/-- Streams by name, and what has come from each of them. -/
structure Watched where
  streams : Streams := []
  readings : String → Option Reading := fun _ => none

/-- What a use makes its stream yield.  Reading to the end yields the tokens in front of a failure,
too, although the reply shows the failure only. -/
def takes (s : Script) (all : Streams) : Use → List Stream.Item
  | .start _ _ => []
  | .next n => ((all.lookup n).map fun st => (st.next s).1.toList).getD []
  | .rest n => ((all.lookup n).map fun st => st.items s).getD []

/-- The reading of a stream that has yielded more. -/
def Reading.add (items : List Stream.Item) (r : Reading) : Reading :=
  { r with items := r.items ++ items }

/-- One more use. -/
def Watched.use (s : Script) (w : Watched) (u : Use) : Watched where
  streams := (step s w.streams u).2
  readings n := match u with
    | .start m mode => if m = n then some { mode } else w.readings n
    | .next m | .rest m =>
      if m = n then (w.readings n).map (.add (takes s w.streams u)) else w.readings n

/-- Streams after some uses, before which none was open. -/
def watch (s : Script) (uses : List Use) : Watched := uses.foldl (Watched.use s) {}

/-- The reply to the demand for the next item. -/
def Reply.ofNext : Option Stream.Item → Reply
  | none => .nothing
  | some (.ok t) => .token t
  | some (.error f) => .failure f

/-- The reply to the demand for all items. -/
def Reply.ofRest (items : List Stream.Item) : Reply :=
  match items.getLast? with
  | some (.error f) => .failure f
  | _ => .tokens (items.filterMap Except.toOption)

/-- The reply to a use says that the stream with this name has come to its end. -/
def Use.Ends (n : String) (u : Use) (reply : Reply) : Prop :=
  u = .rest n ∨ u = .next n ∧ (reply = .nothing ∨ ∃ f, reply = .failure f)

variable {s : Script} {all : Streams} {u : Use} {m n : String} {st : Stream} {w : Watched}

/-! ### One use -/

theorem step_next_none (h : all.lookup m = none) : step s all (.next m) = (.nothing, all) := by
  simp only [step, h]

theorem step_rest_none (h : all.lookup m = none) : step s all (.rest m) = (.nothing, all) := by
  simp only [step, h]

theorem step_next_some (h : all.lookup m = some st) :
    step s all (.next m) = (.ofNext (st.next s).1, all.set m (st.next s).2) := by
  simp only [step, h]
  rcases st.next s with ⟨_ | (f | t), st'⟩ <;> rfl

/-- Only the last item of a stream can be a failure. -/
theorem ofRest_items (s : Script) (st : Stream) :
    Reply.ofRest (st.items s) = match (st.drain s).2.1 with
      | some f => .failure f
      | none => .tokens (st.drain s).1 := by
  unfold Stream.items
  cases (st.drain s).2.1 with
  | some f =>
    unfold Reply.ofRest
    rw [Option.toList_some, List.map_singleton, List.getLast?_concat]
  | none =>
    have hlast : ∀ f, ((st.drain s).1.map Except.ok).getLast? ≠
        some (Except.error f : Stream.Item) := by
      intro f hf
      rw [List.getLast?_map] at hf
      cases h : (st.drain s).1.getLast? with
      | none =>
        rw [h] at hf
        cases hf
      | some t =>
        rw [h] at hf
        cases hf
    rw [Option.toList_none, List.map_nil, List.append_nil]
    unfold Reply.ofRest
    split
    · rename_i f hf
      exact absurd hf (hlast f)
    · rw [List.filterMap_map]
      simp [Function.comp_def, Except.toOption]

theorem step_rest_some (h : all.lookup m = some st) :
    step s all (.rest m) = (.ofRest (st.items s), all.set m (st.drain s).2.2) := by
  rw [ofRest_items]
  simp only [step, h]
  rcases st.drain s with ⟨ts, _ | f, st'⟩ <;> rfl

theorem Reading.map_add_nil (r? : Option Reading) : r?.map (.add []) = r? := by
  cases r? with
  | none => rfl
  | some r => simp [Reading.add]

/-- What a use can do to a stream with a name and to what has come from it. -/
inductive Affects (s : Script) (u : Use) (n : String) (r? : Option Reading) :
    Option Stream → Option Stream → Option Reading → Prop
  | opened {st? : Option Stream} (mode : StreamMode) (hu : u = .start n mode) :
      Affects s u n r? st? (some (s.openStream mode)) (some { mode })
  | read {st st' : Stream} {items : List Stream.Item} (hmode : st'.mode = st.mode)
      (hitems : st.items s = items ++ st'.items s) :
      Affects s u n r? (some st) (some st') (r?.map (.add items))
  | spared (st? : Option Stream) : Affects s u n r? st? st? r?

/-- A use reads from its own stream and spares all others. -/
theorem affects_use (s : Script) (w : Watched) (u : Use) (n : String) :
    Affects s u n (w.readings n) (w.streams.lookup n) ((w.use s u).streams.lookup n)
      ((w.use s u).readings n) := by
  cases u with
  | start m mode =>
    simp only [Watched.use, step]
    rw [lookup_set]
    by_cases hm : m = n
    · subst hm
      rw [if_pos rfl, if_pos rfl]
      exact .opened mode rfl
    · rw [if_neg hm, if_neg (Ne.symm hm)]
      exact .spared _
  | next m =>
    simp only [Watched.use, takes]
    cases hst : w.streams.lookup m with
    | none =>
      rw [step_next_none hst, Option.map_none, Option.getD_none, Reading.map_add_nil, ite_self]
      exact .spared _
    | some st =>
      rw [step_next_some hst, lookup_set]
      by_cases hm : m = n
      · subst hm
        rw [if_pos rfl, if_pos rfl, hst]
        exact .read (Stream.mode_next s st) (Stream.items_next s st)
      · rw [if_neg hm, if_neg (Ne.symm hm)]
        exact .spared _
  | rest m =>
    simp only [Watched.use, takes]
    cases hst : w.streams.lookup m with
    | none =>
      rw [step_rest_none hst, Option.map_none, Option.getD_none, Reading.map_add_nil, ite_self]
      exact .spared _
    | some st =>
      rw [step_rest_some hst, lookup_set]
      by_cases hm : m = n
      · subst hm
        obtain ⟨hended, hmode⟩ := Stream.drain_ends s st
        rw [if_pos rfl, if_pos rfl, hst]
        refine .read hmode ?_
        rw [Stream.items_of_ended hended, List.append_nil]
        rfl
      · rw [if_neg hm, if_neg (Ne.symm hm)]
        exact .spared _

/-! ### Any number of uses -/

/-- What has come from a stream and what is left of it are what it yields alone. -/
inductive Tracks (s : Script) : Option Stream → Option Reading → Prop
  | absent : Tracks s none none
  | present {st : Stream} {r : Reading} (hmode : st.mode = r.mode)
      (hitems : s.alone r.mode = r.items ++ st.items s) : Tracks s (some st) (some r)

theorem Tracks.isSome {st? : Option Stream} {r? : Option Reading} (h : Tracks s st? r?) :
    r?.isSome = st?.isSome := by
  cases h <;> rfl

theorem Affects.tracks {st? st?' : Option Stream} {r? r?' : Option Reading}
    (h : Affects s u n r? st? st?' r?') (ht : Tracks s st? r?) : Tracks s st?' r?' := by
  cases h with
  | opened mode _ => exact .present rfl rfl
  | read hmode hitems =>
    cases ht with
    | present hmode' hitems' =>
      refine .present (hmode.trans hmode') ?_
      rw [Reading.add, List.append_assoc, ← hitems]
      exact hitems'
  | spared => exact ht

theorem tracks_foldl (uses : List Use) (h : Tracks s (w.streams.lookup n) (w.readings n)) :
    Tracks s ((uses.foldl (Watched.use s) w).streams.lookup n)
      ((uses.foldl (Watched.use s) w).readings n) := by
  induction uses generalizing w with
  | nil => exact h
  | cons u uses ih => exact ih ((affects_use s w u n).tracks h)

/-- Nothing is left of the stream with this name, if there is one. -/
def Over (s : Script) (all : Streams) (n : String) : Prop := ∀ st ∈ all.lookup n, st.items s = []

/-- After an end nothing is left. -/
theorem over_of_ends (h : u.Ends n (step s all u).1) : Over s (step s all u).2 n := by
  have hset : ∀ {st : Stream}, st.ended = true → Over s (all.set n st) n := by
    intro st hst st' hst'
    rw [lookup_set, if_pos rfl] at hst'
    cases hst'
    exact Stream.items_of_ended hst
  rcases h with rfl | ⟨rfl, hreply⟩
  · cases hst : all.lookup n with
    | none =>
      rw [step_rest_none hst]
      simp [Over, hst]
    | some st =>
      rw [step_rest_some hst]
      exact hset (Stream.drain_ends s st).1
  · cases hst : all.lookup n with
    | none =>
      rw [step_next_none hst]
      simp [Over, hst]
    | some st =>
      have hadvances := Stream.next_advances s st
      rw [step_next_some hst] at hreply ⊢
      generalize (st.next s).1 = item at hadvances hreply
      cases hadvances with
      | token t _ _ => simp [Reply.ofNext] at hreply
      | failure f hended _ => exact hset hended
      | nothing hended _ => exact hset hended

/-- Of a stream of which nothing is left nothing comes any more. -/
theorem Over.foldl {uses : List Use} (h : Over s w.streams n)
    (huses : ∀ mode, .start n mode ∉ uses) :
    Over s (uses.foldl (Watched.use s) w).streams n ∧
      (uses.foldl (Watched.use s) w).readings n = w.readings n := by
  induction uses generalizing w with
  | nil => exact ⟨h, rfl⟩
  | cons u uses ih =>
    have huses' : ∀ mode, .start n mode ∉ uses := fun mode hmem =>
      huses mode (List.mem_cons_of_mem _ hmem)
    have hone : Over s (w.use s u).streams n ∧ (w.use s u).readings n = w.readings n := by
      have haffects := affects_use s w u n
      unfold Over at h ⊢
      generalize w.streams.lookup n = st? at haffects h
      generalize (w.use s u).streams.lookup n = st?' at haffects ⊢
      generalize (w.use s u).readings n = r?' at haffects ⊢
      cases haffects with
      | opened mode hu => exact absurd (hu ▸ List.mem_cons_self) (huses mode)
      | read hmode hitems =>
        rw [h _ rfl] at hitems
        obtain ⟨hitems, hst'⟩ := List.append_eq_nil_iff.mp hitems.symm
        rw [hitems, Reading.map_add_nil]
        exact ⟨fun st hst => by cases hst; exact hst', rfl⟩
      | spared => exact ⟨h, rfl⟩
    obtain ⟨hover, hreadings⟩ := ih hone.1 huses'
    exact ⟨hover, hreadings.trans hone.2⟩

theorem reply_next (h : all.lookup n = some st) :
    (step s all (.next n)).1 = .ofNext (st.items s).head? := by
  rw [step_next_some h]
  rcases hnext : st.next s with ⟨_ | item, st'⟩
  · rw [Stream.items_of_none hnext]
    rfl
  · rw [Stream.items_of_next hnext]
    rfl

/-- **Streams that are read in turns.**  After any uses of any streams over one script, what has
come from a stream since it was opened is the beginning of what it yields alone, and the replies to
further uses are made of the rest.  Once it has come to its end, and unless it is opened again,
nothing more comes from it.  Alone, a stream of all pieces yields the whole scan; a stream of tokens
yields the tokens in front of the first bad piece and then the failure there, if there is one; and a
closed stream does the same, but yields the end of the text if there is no bad piece. -/
theorem watch_interleaved (s : Script) (uses : List Use) (n : String) :
    let w := watch s uses
    (w.readings n).isSome = (w.streams.lookup n).isSome ∧
    (∀ r ∈ w.readings n, ∃ left, s.alone r.mode = r.items ++ left ∧
      (step s w.streams (.next n)).1 = .ofNext left.head? ∧
      (step s w.streams (.rest n)).1 = .ofRest left) ∧
    (∀ u more, u.Ends n (step s w.streams u).1 → (∀ mode, .start n mode ∉ more) →
      (watch s (uses ++ u :: more)).readings n = (watch s (uses ++ [u])).readings n ∧
        (step s (watch s (uses ++ u :: more)).streams (.next n)).1 = .nothing) ∧
    s.alone .pieces = s.scan.map .ok ∧
    s.alone .tokens = (s.scan.takeWhile (!·.kind.isBad)).map .ok ++
      ((s.scan.find? (·.kind.isBad)).map fun t => .error (s.badToken t)).toList ∧
    s.alone .closed = (s.scan.takeWhile (!·.kind.isBad)).map .ok ++
      [((s.scan.find? (·.kind.isBad)).map fun t => .error (s.badToken t)).getD (.ok s.finish)] := by
  intro w
  have htracks : Tracks s (w.streams.lookup n) (w.readings n) :=
    tracks_foldl uses .absent
  refine ⟨?_, ?_, ?_, s.alone_eq .pieces, s.alone_eq .tokens, s.alone_eq .closed⟩
  · exact htracks.isSome
  · intro r hr
    rw [Option.mem_def.mp hr] at htracks
    cases hst : w.streams.lookup n with
    | none =>
      rw [hst] at htracks
      cases htracks
    | some st =>
      rw [hst] at htracks
      cases htracks with
      | present _ hitems =>
        exact ⟨st.items s, hitems, reply_next hst, by rw [step_rest_some hst]⟩
  · intro u more hends hmore
    have hover : Over s (w.use s u).streams n := over_of_ends hends
    have hone : watch s (uses ++ [u]) = w.use s u := List.foldl_append
    have hall : watch s (uses ++ u :: more) = more.foldl (Watched.use s) (w.use s u) :=
      List.foldl_append
    obtain ⟨hover', hreadings⟩ := hover.foldl hmore
    rw [hone, hall]
    refine ⟨hreadings, ?_⟩
    cases hst : (more.foldl (Watched.use s) (w.use s u)).streams.lookup n with
    | none => rw [step_next_none hst]
    | some st =>
      rw [reply_next hst, hover' st hst]
      rfl

/-- A stream of tokens and one of all pieces, in turns.  The number sign hides nothing here, as it
stands in a text; the first stream fails at the dollar sign, the second goes on. -/
example : let uses := [.start "t" .tokens, .start "p" .pieces, .next "p", .next "t", .rest "t",
      .rest "p", .next "t"]
    let w := watch { text := "a \"#\" $ b" } uses
    (w.readings "t").map (·.items.length) = some 3 ∧
      (w.readings "p").map (·.items.length) = some 4 := by
  decide

end Streams

end DialogueScript
