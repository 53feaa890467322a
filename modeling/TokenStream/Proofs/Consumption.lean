import TokenStream.Proofs.Restart

/-!
# Using up a stream

At any lexer that steps lead to, the tokens that `next` still gives are one list. Each way to use
them up answers with a part of it and leaves the part behind: what has been given is not given again,
and nothing is lost. The end token counts as an element. Behind it a lexer is spent, and stays as it
is however it is used.
-/

namespace TokenStream

/-! ## The tokens behind those used up -/

namespace Tape

variable {T : Tape} {h : Head}

theorem ahead_skip (T : Tape) (h : Head) (n : Nat) :
    T.ahead (T.skip h n) = (T.ahead h).drop n := by
  induction n generalizing h with
  | zero => rw [skip_zero, List.drop_zero]
  | succ n ih => rw [skip_succ, ih, ahead_next, List.drop_tail]

/-- A head with a closed stream stands behind the end token. -/
def Settled (T : Tape) (h : Head) : Prop := h.done = true → h.index = T.last

theorem settled_last (T : Tape) (done : Bool) : T.Settled ⟨T.last, done⟩ := fun _ => rfl

theorem Settled.scan (hs : T.Settled h) : T.Settled (T.scan h).2 := by
  cases ht : T.tokens[h.index]? with
  | some t =>
      rw [scan_of_some ht]
      intro hd
      -- behind the end token no token is left to scan
      have hlt := (List.getElem?_eq_some_iff.mp ht).1
      rw [hs hd] at hlt
      exact absurd hlt (by simp [last])
  | none =>
      rw [scan_of_none ht]
      exact settled_last T h.done

theorem Settled.next (hs : T.Settled h) : T.Settled (T.next h).2 := by
  obtain ⟨i, _ | _⟩ := h
  · cases ht : T.tokens[i]? with
    | some t =>
        rw [next_of_some ht]
        intro hd
        cases hd
    | none =>
        rw [next_of_none ht]
        exact settled_last T true
  · exact hs

theorem Settled.skip (hs : T.Settled h) (n : Nat) : T.Settled (T.skip h n) := by
  induction n generalizing h with
  | zero => rwa [skip_zero]
  | succ n ih =>
      rw [skip_succ]
      exact ih hs.next

theorem Settled.step (hs : T.Settled h) (step : Step) : T.Settled (T.step h step).2 := by
  cases step with
  | scan => exact hs.scan
  | next => exact hs.next
  | scanAll => exact settled_last T h.done
  | collect => exact hs.skip _
  | take n => exact hs.skip n
  | nth n => exact hs.skip (n + 1)
  | count => exact hs.skip _
  | last => exact hs.skip _
  | source => exact hs

theorem Settled.after (hs : T.Settled h) (steps : List Step) : T.Settled (T.after h steps) := by
  induction steps generalizing h with
  | nil => exact hs
  | cons step steps ih => exact ih (hs.step step)

theorem Settled.skip_length (hs : T.Settled h) :
    T.skip h (T.ahead h).length = ⟨T.last, true⟩ := by
  obtain ⟨i, _ | _⟩ := h
  · simp [Tape.skip]
  · have hi : i = T.last := hs rfl
    rw [hi, skip_closed]

end Tape

/-! ## A lexer with nothing ahead -/

namespace Lexer

variable {l : Lexer}

/-- The lexer stands behind the end token of its source, gives no more, and stays as it is. -/
structure Spent (s : String) (l : Lexer) : Prop where
  source_eq : l.source = s
  pos_eq : l.pos = s.utf8ByteSize
  done : l.done = true
  next : l.next = (none, l)
  collect : l.collect = ([], l)
  take : ∀ n, l.take n = ([], l)
  nth? : ∀ n, l.nth? n = (none, l)
  count : l.count = (0, l)
  last? : l.last? = (none, l)

theorem next_of_done (h : l.done = true) : l.next = (none, l) := by
  rw [Lexer.next, if_pos h]

theorem done_of_next_eq_none (h : l.next.1 = none) : l.done = true := by
  cases hd : l.done with
  | true => rfl
  | false => simp [Lexer.next, hd] at h

theorem fold_of_done {β : Type} {f : β → Token → β} {b : β} (h : l.done = true) :
    l.fold f b = (b, l) := by
  have hnext := next_of_done h
  rw [fold_of_none (congrArg Prod.fst hnext), hnext]

theorem take_of_done (h : l.done = true) (n : Nat) : l.take n = ([], l) := by
  have hnext := next_of_done h
  cases n with
  | zero => rfl
  | succ n => rw [take_succ_of_none (congrArg Prod.fst hnext), hnext]

theorem nth?_of_done (h : l.done = true) (n : Nat) : l.nth? n = (none, l) := by
  have hnext := next_of_done h
  cases n with
  | zero => exact hnext
  | succ n => rw [nth?_succ_of_none (congrArg Prod.fst hnext), hnext]

theorem spent_of_done (hd : l.done = true) (hpos : l.pos = l.source.utf8ByteSize) :
    l.Spent l.source where
  source_eq := rfl
  pos_eq := hpos
  done := hd
  next := next_of_done hd
  collect := by rw [Lexer.collect, fold_of_done hd]
  take := take_of_done hd
  nth? := nth?_of_done hd
  count := fold_of_done hd
  last? := fold_of_done hd

/-- Taking tokens twice is taking them once. -/
theorem take_add (l : Lexer) (m n : Nat) :
    l.take (m + n) = ((l.take m).1 ++ ((l.take m).2.take n).1, ((l.take m).2.take n).2) := by
  induction m generalizing l with
  | zero => rw [Nat.zero_add]; rfl
  | succ m ih =>
      rw [Nat.succ_add]
      cases hnext : l.next.1 with
      | none =>
          have hd := done_of_next_eq_none hnext
          rw [take_of_done hd, take_of_done hd, take_of_done hd]
          rfl
      | some t =>
          rw [take_succ_of_some hnext, take_succ_of_some hnext, ih]
          rfl

end Lexer

/-! ## Ways to use up a lexer -/

/-- `l` is a lexer on the source `s` that still gives the tokens `ts`: each way to use it up answers
with its part of `ts`, and leaves what is behind that part. -/
structure Lexer.UsesUp (s : String) (ts : List Token) (l : Lexer) : Prop where
  collect : l.collect.1 = ts
  of_done : l.done = true → ts = []
  of_not_done : l.done = false → l.scanAll.1 = ts ∧
    ∃ us, ts = us ++ [.eof s.utf8ByteSize] ∧ ∀ t ∈ us, t.isEof = false
  take : ∀ n, (l.take n).1 = ts.take n ∧ (l.take n).2.collect.1 = ts.drop n
  take_take : ∀ m n,
    ((l.take m).1 ++ ((l.take m).2.take n).1, ((l.take m).2.take n).2) = l.take (m + n)
  nth? : ∀ n, (l.nth? n).1 = ts[n]? ∧ (l.nth? n).2.collect.1 = ts.drop (n + 1)
  count : l.count.1 = ts.length
  last? : l.last?.1 = ts.getLast?
  spent : l.collect.2.Spent s ∧ l.count.2.Spent s ∧ l.last?.2.Spent s

namespace Tape

variable {T : Tape} {l : Lexer} {h : Head}

theorem Tracks.spent (ht : T.Tracks l ⟨T.last, true⟩) : l.Spent T.source := by
  have hpos : l.pos = l.source.utf8ByteSize := by
    rw [ht.pos_eq, ht.source_eq]
    simp [position, last]
  have hspent := Lexer.spent_of_done ht.done_eq hpos
  rwa [ht.source_eq] at hspent

theorem Tracks.collect_skip {n : Nat} (ht : T.Tracks l (T.skip h n)) :
    l.collect.1 = (T.ahead h).drop n := by
  rw [ht.follows.collect.1, ahead_skip]

theorem Tracks.usesUp (ht : T.Tracks l h) (hs : T.Settled h) :
    l.UsesUp T.source (T.ahead h) := by
  have hf := ht.follows
  obtain ⟨hcollect, hcollect'⟩ := hf.collect
  obtain ⟨hcount, hcount'⟩ := hf.count
  obtain ⟨hlast, hlast'⟩ := hf.last?
  rw [hs.skip_length] at hcollect' hcount' hlast'
  constructor
  case collect => exact hcollect
  case of_done =>
    intro hd
    rw [ahead, if_pos (ht.done_eq ▸ hd)]
  case of_not_done =>
    intro hd
    have hopen : ¬h.done = true := by rw [← ht.done_eq, hd]; simp
    have hahead : T.ahead h = T.tokens.drop h.index ++ [T.eof] := if_neg hopen
    refine ⟨ht.scanAll.1.trans hahead.symm, T.tokens.drop h.index, hahead, ?_⟩
    intro t hmem
    exact isEof_eq_false (List.mem_of_mem_drop hmem)
  case take =>
    intro n
    obtain ⟨htake, htake'⟩ := hf.take n
    exact ⟨htake, htake'.collect_skip⟩
  case take_take =>
    intro m n
    exact (l.take_add m n).symm
  case nth? =>
    intro n
    obtain ⟨hnth, hnth'⟩ := hf.nth? n
    exact ⟨hnth, hnth'.collect_skip⟩
  case count => exact hcount
  case last? => exact hlast
  case spent => exact ⟨hcollect'.spent, hcount'.spent, hlast'.spent⟩

end Tape

/-- After any steps on a new lexer, the ways to use it up share one list of tokens among them: the
one that all of it collects to. -/
theorem stream_used_up (s : String) (level : Level) (past : List Step) :
    let l := (Lexer.ofString s level).after past
    l.UsesUp s l.collect.1 := by
  intro l
  have htrack := (Lexer.tracks_after (Tape.tracks_ofString s level) past).1
  have hsettled : (Tape.ofSource s).Settled ((Tape.ofSource s).after {} past) := by
    refine Tape.Settled.after ?_ past
    intro hd
    cases hd
  have huse := htrack.usesUp hsettled
  rwa [← huse.collect] at huse

end TokenStream
