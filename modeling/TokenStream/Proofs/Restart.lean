import TokenStream.Proofs.Account

/-!
# Restarts

A lexer goes on from where it stands as a new lexer over the rest of its source does. The text in
front moves the spans and the positions, and decides nothing; neither does the place where the last
scan found its lexeme. This needs the lexer to stand at a boundary, as it does after any steps.
-/

namespace TokenStream

/-! ## Text in front of a source -/

/-- The answer as it is with `u` in front of the source. A number counts tokens and stays. -/
def Answer.behind (u : String) : Answer → Answer
  | token t => token (t.shift u.utf8ByteSize)
  | token? t => token? (t.map (Token.shift u.utf8ByteSize))
  | tokens ts => tokens (ts.map (Token.shift u.utf8ByteSize))
  | number n => number n
  | text s => text (u ++ s)

/-- The record as it is with `u` in front of the source, whose bytes it counts too. -/
def Record.behind (u : String) : Record → Record
  | scanned t => scanned (t.shift u.utf8ByteSize)
  | drained tokens bytes => drained tokens (bytes + u.utf8ByteSize)

def Outcome.behind (u : String) (o : Outcome) : Outcome where
  answer := o.answer.behind u
  position := o.position + u.utf8ByteSize
  records := o.records.map (Record.behind u)

def Log.behind (u : String) (log : Log) : Log :=
  { log with records := log.records.map (Record.behind u) }

@[simp] theorem Token.isEof_shift (n : Nat) (t : Token) : (t.shift n).isEof = t.isEof := rfl

@[simp] theorem Token.shift_eof (n m : Nat) : (Token.eof m).shift n = .eof (m + n) := rfl

@[simp] theorem Record.level_behind (u : String) (r : Record) : (r.behind u).level = r.level := by
  cases r <;> rfl

theorem Log.behind_write (u : String) (log : Log) (r : Record) :
    (log.write r).behind u = (log.behind u).write (r.behind u) := by
  simp only [write, behind, Record.level_behind]
  split
  · simp
  · rfl

theorem Log.behind_flush (u : String) (log : Log) : log.flush.behind u = (log.behind u).flush := by
  simp [flush, behind]

theorem Cursor.At.append_left {c c' : Cursor} {u p r : String} (h : c'.At p r)
    (hsource : c.source = u ++ c'.source) (hpos : c.pos = c'.pos + u.utf8ByteSize) :
    c.At (u ++ p) r where
  source_eq := by rw [hsource, h.source_eq, String.append_assoc]
  pos_eq := by rw [hpos, h.pos_eq, String.utf8ByteSize_append, Nat.add_comm]

namespace Lexer

/-! ## Lexers with the same rest -/

/-- The lexer stands where another does, with `u` in front of its source. Nothing is said of where
their last scans found a lexeme. -/
structure Resumes (u : String) (l l' : Lexer) : Prop where
  source_eq : l.source = u ++ l'.source
  pos_eq : l.pos = l'.pos + u.utf8ByteSize
  done_eq : l.done = l'.done
  log_eq : l.log = l'.log.behind u
  exists_at : ∃ p r, l'.toCursor.At p r

variable {u : String} {l l' : Lexer}

theorem Resumes.cursor_scan (h : Resumes u l l') :
    l.scan.1 = l'.scan.1.shift u.utf8ByteSize ∧
      l.scan.2.source = u ++ l'.scan.2.source ∧
      l.scan.2.pos = l'.scan.2.pos + u.utf8ByteSize ∧
      ∃ p r, l'.scan.2.toCursor.At p r := by
  obtain ⟨p, r, hat'⟩ := h.exists_at
  have hat := hat'.append_left h.source_eq h.pos_eq
  have hsize : l.source.utf8ByteSize = l'.source.utf8ByteSize + u.utf8ByteSize := by
    rw [h.source_eq, String.utf8ByteSize_append, Nat.add_comm]
  simp only [fst_scan, toCursor_scan]
  -- both cursors have `r` ahead, which alone decides the case of the scan
  rcases isBlankText_or_exists_lexeme r with hr | ⟨w, k, x, t, rfl, hw, hx, ht⟩
  · rw [hat.scan_of_isBlankText hr, hat'.scan_of_isBlankText hr]
    refine ⟨?_, h.source_eq, hsize, l'.source, "", String.append_empty.symm, rfl⟩
    rw [Token.shift_eof, hsize]
  · have hlo : (u ++ p).utf8ByteSize + w.utf8ByteSize =
        p.utf8ByteSize + w.utf8ByteSize + u.utf8ByteSize := by
      rw [String.utf8ByteSize_append]
      omega
    rw [hat.scan_of_isLexeme hw hx ht, hat'.scan_of_isLexeme hw hx ht, hlo,
      Nat.add_right_comm _ u.utf8ByteSize]
    exact ⟨rfl, h.source_eq, rfl, _, _, hat'.behind _⟩

theorem Resumes.scan (h : Resumes u l l') :
    l.scan.1 = l'.scan.1.shift u.utf8ByteSize ∧ Resumes u l.scan.2 l'.scan.2 := by
  obtain ⟨hfst, hsource, hpos, hat⟩ := h.cursor_scan
  refine ⟨hfst, hsource, hpos, h.done_eq, ?_, hat⟩
  have hlog (l : Lexer) : l.scan.2.log =
      if l.scan.1.isEof then l.log else l.log.write (.scanned l.scan.1) := rfl
  rw [hlog, hlog, hfst, Token.isEof_shift, h.log_eq]
  split
  · rfl
  · rw [Log.behind_write]
    rfl

theorem Resumes.next (h : Resumes u l l') :
    l.next.1 = l'.next.1.map (Token.shift u.utf8ByteSize) ∧ Resumes u l.next.2 l'.next.2 := by
  obtain ⟨hfst, hsource, hpos, -, hlog, hat⟩ := h.scan
  simp only [Lexer.next, h.done_eq]
  split
  · exact ⟨rfl, h⟩
  · have heof : l.scan.1.isEof = l'.scan.1.isEof := by rw [hfst, Token.isEof_shift]
    exact ⟨congrArg some hfst, hsource, hpos, heof, hlog, hat⟩

theorem Resumes.next_of_none (h : Resumes u l l') (hnone : l'.next.1 = none) :
    l.next.1 = none ∧ Resumes u l.next.2 l'.next.2 := by
  obtain ⟨hfst, hsnd⟩ := h.next
  rw [hnone, Option.map_none] at hfst
  exact ⟨hfst, hsnd⟩

theorem Resumes.next_of_some {t : Token} (h : Resumes u l l') (hsome : l'.next.1 = some t) :
    l.next.1 = some (t.shift u.utf8ByteSize) ∧ Resumes u l.next.2 l'.next.2 := by
  obtain ⟨hfst, hsnd⟩ := h.next
  rw [hsome, Option.map_some] at hfst
  exact ⟨hfst, hsnd⟩

/-! ## Scanning the whole rest -/

theorem drain_of_isEof (h : l.scan.1.isEof = true) (pulled : Array Token) :
    l.drain pulled = (pulled.push l.scan.1, l.scan.2) := by
  rw [Lexer.drain, dif_pos h]

theorem drain_of_not_isEof (h : ¬l.scan.1.isEof = true) (pulled : Array Token) :
    l.drain pulled = l.scan.2.drain (pulled.push l.scan.1) := by
  rw [Lexer.drain, dif_neg h]

theorem Resumes.drain (h : Resumes u l l') (pulled : Array Token) :
    (l.drain (pulled.map (Token.shift u.utf8ByteSize))).1 =
        (l'.drain pulled).1.map (Token.shift u.utf8ByteSize) ∧
      Resumes u (l.drain (pulled.map (Token.shift u.utf8ByteSize))).2 (l'.drain pulled).2 := by
  fun_induction Lexer.drain l' pulled generalizing l with
  | case1 l' pulled heof =>
      obtain ⟨hfst, hsnd⟩ := h.scan
      rw [← Token.isEof_shift u.utf8ByteSize, ← hfst] at heof
      rw [drain_of_isEof heof, hfst, ← Array.map_push]
      exact ⟨rfl, hsnd⟩
  | case2 l' pulled heof _ ih =>
      obtain ⟨hfst, hsnd⟩ := h.scan
      rw [← Token.isEof_shift u.utf8ByteSize, ← hfst] at heof
      rw [drain_of_not_isEof heof, hfst, ← Array.map_push]
      exact ih hsnd

theorem Resumes.scanAll (h : Resumes u l l') :
    l.scanAll.1 = l'.scanAll.1.map (Token.shift u.utf8ByteSize) ∧
      Resumes u l.scanAll.2 l'.scanAll.2 := by
  obtain ⟨hfst, hsource, hpos, hdone, hlog, hat⟩ := h.drain #[]
  simp only [Array.map_empty] at hfst hsource hpos hdone hlog
  refine ⟨?_, hsource, hpos, hdone, ?_, hat⟩
  · simp only [Lexer.scanAll, hfst, Array.toList_map]
  · simp only [Lexer.scanAll]
    rw [hlog, Log.behind_write, hfst, Array.size_map, hsource, String.utf8ByteSize_append,
      Nat.add_comm u.utf8ByteSize]
    rfl

/-! ## Using a stream up -/

/-- A fold goes along with the shift when its function does. -/
theorem Resumes.fold {β : Type} {f : β → Token → β} {g : β → β} (h : Resumes u l l')
    (hg : ∀ b t, g (f b t) = f (g b) (t.shift u.utf8ByteSize)) (b : β) :
    (l.fold f (g b)).1 = g (l'.fold f b).1 ∧
      Resumes u (l.fold f (g b)).2 (l'.fold f b).2 := by
  fun_induction Lexer.fold f b l' generalizing l with
  | case1 b l' hnone =>
      obtain ⟨hfst, hsnd⟩ := h.next_of_none hnone
      rw [fold_of_none hfst]
      exact ⟨rfl, hsnd⟩
  | case2 b l' t hsome _ ih =>
      obtain ⟨hfst, hsnd⟩ := h.next_of_some hsome
      rw [fold_of_some hfst, ← hg]
      exact ih hsnd

theorem Resumes.collect (h : Resumes u l l') :
    l.collect.1 = l'.collect.1.map (Token.shift u.utf8ByteSize) ∧
      Resumes u l.collect.2 l'.collect.2 := by
  obtain ⟨hfst, hsnd⟩ := h.fold (f := Array.push) (g := Array.map (Token.shift u.utf8ByteSize))
    (fun _ _ => Array.map_push) #[]
  rw [Array.map_empty] at hfst hsnd
  refine ⟨?_, hsnd⟩
  simp only [Lexer.collect, hfst, Array.toList_map]

theorem Resumes.count (h : Resumes u l l') :
    l.count.1 = l'.count.1 ∧ Resumes u l.count.2 l'.count.2 :=
  h.fold (g := id) (fun _ _ => rfl) 0

theorem Resumes.last? (h : Resumes u l l') :
    l.last?.1 = l'.last?.1.map (Token.shift u.utf8ByteSize) ∧ Resumes u l.last?.2 l'.last?.2 :=
  h.fold (g := Option.map (Token.shift u.utf8ByteSize)) (fun _ _ => rfl) none

theorem Resumes.take (h : Resumes u l l') (n : Nat) :
    (l.take n).1 = (l'.take n).1.map (Token.shift u.utf8ByteSize) ∧
      Resumes u (l.take n).2 (l'.take n).2 := by
  induction n generalizing l l' with
  | zero => exact ⟨rfl, h⟩
  | succ n ih =>
      cases hnext : l'.next.1 with
      | none =>
          obtain ⟨hfst, hsnd⟩ := h.next_of_none hnext
          rw [take_succ_of_none hfst, take_succ_of_none hnext]
          exact ⟨rfl, hsnd⟩
      | some t =>
          obtain ⟨hfst, hsnd⟩ := h.next_of_some hnext
          obtain ⟨htake, hend⟩ := ih hsnd
          rw [take_succ_of_some hfst, take_succ_of_some hnext, htake]
          exact ⟨rfl, hend⟩

theorem Resumes.nth? (h : Resumes u l l') (n : Nat) :
    (l.nth? n).1 = (l'.nth? n).1.map (Token.shift u.utf8ByteSize) ∧
      Resumes u (l.nth? n).2 (l'.nth? n).2 := by
  induction n generalizing l l' with
  | zero => exact h.next
  | succ n ih =>
      cases hnext : l'.next.1 with
      | none =>
          obtain ⟨hfst, hsnd⟩ := h.next_of_none hnext
          rw [nth?_succ_of_none hfst, nth?_succ_of_none hnext]
          exact ⟨rfl, hsnd⟩
      | some t =>
          obtain ⟨hfst, hsnd⟩ := h.next_of_some hnext
          rw [nth?_succ_of_some hfst, nth?_succ_of_some hnext]
          exact ih hsnd

/-! ## Steps -/

/-- Each step answers the same but for the text in front, and leaves the rest the same. -/
theorem Resumes.run (h : Resumes u l l') (step : Step) :
    (step.run l).1 = (step.run l').1.behind u ∧ Resumes u (step.run l).2 (step.run l').2 := by
  cases step with
  | scan => exact ⟨congrArg Answer.token h.scan.1, h.scan.2⟩
  | next => exact ⟨congrArg Answer.token? h.next.1, h.next.2⟩
  | scanAll => exact ⟨congrArg Answer.tokens h.scanAll.1, h.scanAll.2⟩
  | collect => exact ⟨congrArg Answer.tokens h.collect.1, h.collect.2⟩
  | take n => exact ⟨congrArg Answer.tokens (h.take n).1, (h.take n).2⟩
  | nth n => exact ⟨congrArg Answer.token? (h.nth? n).1, (h.nth? n).2⟩
  | count => exact ⟨congrArg Answer.number h.count.1, h.count.2⟩
  | last => exact ⟨congrArg Answer.token? h.last?.1, h.last?.2⟩
  | source => exact ⟨congrArg Answer.text h.source_eq, h⟩

theorem Resumes.flush (h : Resumes u l l') :
    Resumes u { l with log := l.log.flush } { l' with log := l'.log.flush } where
  source_eq := h.source_eq
  pos_eq := h.pos_eq
  done_eq := h.done_eq
  log_eq := by rw [Log.behind_flush, h.log_eq]
  exists_at := h.exists_at

theorem Resumes.session (h : Resumes u l l') (steps : List Step) :
    l.session steps = (l'.session steps).map (Outcome.behind u) := by
  induction steps generalizing l l' with
  | nil => rfl
  | cons step steps ih =>
      obtain ⟨hanswer, hrun⟩ := h.flush.run step
      simp only [Lexer.session, List.map_cons]
      rw [ih hrun, hanswer, hrun.pos_eq, hrun.log_eq]
      simp [Outcome.behind, Log.behind]

/-! ## After any steps -/

/-- The lexer after some steps. -/
def after (l : Lexer) (steps : List Step) : Lexer :=
  steps.foldl (fun l step => (step.run l).2) l

theorem tracks_after {T : Tape} {h : Head} (ht : T.Tracks l h) (steps : List Step) :
    T.Tracks (l.after steps) (T.after h steps) ∧ (l.after steps).log.level = l.log.level := by
  induction steps generalizing l h with
  | nil => exact ⟨ht, rfl⟩
  | cons step steps ih =>
      obtain ⟨-, hrun, hlog⟩ := ht.step step
      obtain ⟨hend, hlevel⟩ := ih hrun
      rw [hlog, Log.level_foldl_write] at hlevel
      exact ⟨hend, hlevel⟩

theorem resumes_ofString {p r : String} (hat : l.toCursor.At p r) :
    Resumes p { l with log := l.log.flush } { ofString r l.log.level with done := l.done } where
  source_eq := hat.source_eq
  pos_eq := by rw [hat.pos_eq]; exact (Nat.zero_add _).symm
  done_eq := rfl
  log_eq := by simp [Log.behind, Log.flush, ofString]
  exists_at := ⟨"", r, ofString_at r l.log.level⟩

theorem session_flush (l : Lexer) (steps : List Step) :
    session { l with log := l.log.flush } steps = l.session steps := by
  cases steps with
  | nil => rfl
  | cons step steps => rfl

theorem session_of_at {p r : String} (hat : l.toCursor.At p r) (steps : List Step) :
    l.session steps =
      (({ ofString r l.log.level with done := l.done } : Lexer).session steps).map
        (Outcome.behind p) := by
  rw [← (resumes_ofString hat).session, session_flush]

end Lexer

/-- After any steps, a lexer goes on as a new lexer over the rest of its source with the same flag
does, but for the text in front: that moves the spans and the positions. The rest and the flag
decide everything, so any other text in front and any other start of the last scan do the same. -/
theorem session_after (s : String) (level : Level) (past future : List Step) :
    let l := (Lexer.ofString s level).after past
    ∃ u r, s = u ++ r ∧ l.pos = u.utf8ByteSize ∧
      Source.slice? s l.pos s.utf8ByteSize = some r ∧
      let restarted := { Lexer.ofString r level with done := l.done }
      l.session future = (restarted.session future).map (Outcome.behind u) ∧
      ∀ v start,
        let l' : Lexer :=
          { source := v ++ r, start, pos := v.utf8ByteSize, done := l.done, log := { level } }
        l'.session future = (restarted.session future).map (Outcome.behind v) := by
  intro l
  obtain ⟨htrack, hlevel⟩ := Lexer.tracks_after (Tape.tracks_ofString s level) past
  obtain ⟨u, r, hat, -⟩ := htrack.exists_at
  have hsource : s = u ++ r := htrack.source_eq.symm.trans hat.source_eq
  refine ⟨u, r, hsource, hat.pos_eq, ?_, ?_, ?_⟩
  · have hslice := Source.slice?_append u r ""
    rw [String.append_empty, ← String.utf8ByteSize_append, ← hsource] at hslice
    rw [hat.pos_eq]
    exact hslice
  · have hsession := Lexer.session_of_at hat future
    rw [hlevel] at hsession
    exact hsession
  · intro v start l'
    exact Lexer.session_of_at (l := l') ⟨rfl, rfl⟩ future

end TokenStream
