import TokenStream.Proofs.Stream
import TokenStream.Proofs.Tiling

/-!
# The log accounts for a session

Each step of a session writes one record for every token that it scans, whether it answers with
that token or not, and a scan of the whole rest one more. The records of a whole session are thus
those of the tokens passed, each once. The level of the log decides which of them are kept, and
nothing else.
-/

namespace TokenStream

namespace Log

theorem level_foldl_write (log : Log) (rs : List Record) :
    (rs.foldl write log).level = log.level := by
  induction rs generalizing log with
  | nil => rfl
  | cons r rs ih => rw [List.foldl_cons, ih, level_write]

theorem toList_records_foldl_write (log : Log) (rs : List Record) :
    (rs.foldl write log).records.toList =
      log.records.toList ++ rs.filter fun r => log.level.admits r.level := by
  induction rs generalizing log with
  | nil => simp
  | cons r rs ih =>
      rw [List.foldl_cons, ih, toList_records_write, level_write, List.append_assoc,
        ← List.filter_append, List.singleton_append]

end Log

namespace Tape

variable {T : Tape} {l : Lexer} {h : Head}

/-! ## Steps of a head -/

/-- What a step answers at a head, and where it leaves the head. -/
def step (T : Tape) (h : Head) : Step → Answer × Head
  | .scan => (T.scan h).map .token id
  | .next => (T.next h).map .token? id
  | .scanAll => (T.scanAll h).map .tokens id
  | .collect => (.tokens (T.ahead h), T.skip h (T.ahead h).length)
  | .take n => (.tokens ((T.ahead h).take n), T.skip h n)
  | .nth n => (.token? (T.ahead h)[n]?, T.skip h (n + 1))
  | .count => (.number (T.ahead h).length, T.skip h (T.ahead h).length)
  | .last => (.token? (T.ahead h).getLast?, T.skip h (T.ahead h).length)
  | .source => (.text T.source, h)

/-- The tokens that a step passes, those included that its answer leaves out. -/
def passed (T : Tape) (h : Head) (step : Step) : List Token :=
  (T.tokens.take (T.step h step).2.index).drop h.index

/-- The records that a step writes. -/
def account (T : Tape) (h : Head) (step : Step) : List Record :=
  (T.passed h step).map .scanned ++
    if step = .scanAll then [.drained (T.scanAll h).1.length T.source.utf8ByteSize] else []

/-- The answers of steps, the positions after them and all their records. -/
def session (T : Tape) (h : Head) : List Step → List Outcome
  | [] => []
  | step :: steps =>
    let r := T.step h step
    ⟨r.1, T.position r.2.index, T.account h step⟩ :: T.session r.2 steps

theorem Follows.logged {l' : Lexer} {s : Step} (hf : T.Follows h.index l.log l' (T.step h s).2)
    (hs : s ≠ .scanAll) :
    T.Tracks l' (T.step h s).2 ∧ l'.log = (T.account h s).foldl Log.write l.log := by
  refine ⟨hf.toTracks, ?_⟩
  rw [account, if_neg hs, List.append_nil]
  exact hf.log_eq

theorem Tracks.scanAll_logged (ht : T.Tracks l h) :
    T.Tracks l.scanAll.2 (T.scanAll h).2 ∧
      l.scanAll.2.log = (T.account h .scanAll).foldl Log.write l.log := by
  obtain ⟨hfst, hsnd⟩ := ht.scanAll
  have hf := ht.follows.drain #[]
  have hsize : (l.drain #[]).1.size = (T.scanAll h).1.length := by
    rw [← hfst]
    exact Array.length_toList.symm
  refine ⟨hsnd, ?_⟩
  simp only [Lexer.scanAll, hsize, hf.source_eq, hf.log_eq]
  rw [account, if_pos rfl, List.foldl_append]
  rfl

/-- Each step answers as it does at the head, and writes the records of the tokens it passes. -/
theorem Tracks.step (ht : T.Tracks l h) (step : Step) :
    (step.run l).1 = (T.step h step).1 ∧ T.Tracks (step.run l).2 (T.step h step).2 ∧
      (step.run l).2.log = (T.account h step).foldl Log.write l.log := by
  have hf := ht.follows
  cases step with
  | scan => exact ⟨congrArg Answer.token hf.scan.1, hf.scan.2.logged (s := .scan) (by simp)⟩
  | next => exact ⟨congrArg Answer.token? hf.next.1, hf.next.2.logged (s := .next) (by simp)⟩
  | scanAll => exact ⟨congrArg Answer.tokens ht.scanAll.1, ht.scanAll_logged⟩
  | collect =>
      obtain ⟨hfst, hsnd⟩ := hf.collect
      exact ⟨congrArg Answer.tokens hfst, hsnd.logged (s := .collect) (by simp)⟩
  | take n =>
      obtain ⟨hfst, hsnd⟩ := hf.take n
      exact ⟨congrArg Answer.tokens hfst, hsnd.logged (s := .take n) (by simp)⟩
  | nth n =>
      obtain ⟨hfst, hsnd⟩ := hf.nth? n
      exact ⟨congrArg Answer.token? hfst, hsnd.logged (s := .nth n) (by simp)⟩
  | count =>
      obtain ⟨hfst, hsnd⟩ := hf.count
      exact ⟨congrArg Answer.number hfst, hsnd.logged (s := .count) (by simp)⟩
  | last =>
      obtain ⟨hfst, hsnd⟩ := hf.last?
      exact ⟨congrArg Answer.token? hfst, hsnd.logged (s := .last) (by simp)⟩
  | source => exact ⟨congrArg Answer.text ht.source_eq, hf.logged (s := .source) (by simp)⟩

/-! ## Passing tokens -/

theorem le_index_scan (T : Tape) (h : Head) :
    min h.index T.tokens.length ≤ (T.scan h).2.index := by
  cases ht : T.tokens[h.index]? with
  | some t =>
      rw [scan_of_some ht]
      exact Nat.le_succ_of_le (Nat.min_le_left _ _)
  | none =>
      rw [scan_of_none ht]
      exact Nat.le_succ_of_le (Nat.min_le_right _ _)

theorem le_index_skip (T : Tape) (h : Head) (n : Nat) :
    min h.index T.tokens.length ≤ (T.skip h n).index := by
  unfold skip
  split
  · exact Nat.min_le_left _ _
  · split
    · exact Nat.le_trans (Nat.min_le_left _ _) (Nat.le_add_right _ _)
    · exact Nat.le_succ_of_le (Nat.min_le_right _ _)

theorem le_index_next (T : Tape) (h : Head) :
    min h.index T.tokens.length ≤ (T.next h).2.index := by
  unfold next
  split
  · exact Nat.min_le_left _ _
  · exact le_index_scan T h

theorem le_index_step (T : Tape) (h : Head) (step : Step) :
    min h.index T.tokens.length ≤ (T.step h step).2.index := by
  cases step with
  | scan => exact le_index_scan T h
  | next => exact le_index_next T h
  | scanAll => exact Nat.le_succ_of_le (Nat.min_le_right _ _)
  | collect => exact le_index_skip T h _
  | take n => exact le_index_skip T h n
  | nth n => exact le_index_skip T h (n + 1)
  | count => exact le_index_skip T h _
  | last => exact le_index_skip T h _
  | source => exact Nat.min_le_left _ _

theorem take_append_passed (T : Tape) (h : Head) (step : Step) :
    T.tokens.take h.index ++ T.passed h step = T.tokens.take (T.step h step).2.index := by
  have hle := le_index_step T h step
  have htake : (T.tokens.take (T.step h step).2.index).take h.index = T.tokens.take h.index := by
    rw [List.take_take, List.take_eq_take_iff]
    omega
  rw [passed, ← htake, List.take_append_drop]

/-- A head that stands at the end of the source has passed all its tokens. -/
theorem length_le_of_position_eq {i : Nat} (hi : T.position i = T.source.utf8ByteSize) :
    T.tokens.length ≤ i := by
  refine Nat.le_of_not_lt fun hlt => ?_
  obtain ⟨u, v, hsrc, hspan, hlex, -⟩ := T.reads.exists_append (List.getElem_mem hlt)
  have hlo : T.position i ≤ T.tokens[i].span.lo := by
    cases i with
    | zero => exact Nat.zero_le _
    | succ j =>
        have hj : j < T.tokens.length := Nat.lt_of_succ_lt hlt
        simp only [position, List.getElem?_eq_getElem hj, Option.elim_some]
        exact List.pairwise_iff_getElem.mp T.reads.ordered j (j + 1) hj hlt (Nat.lt_succ_self j)
  have hpos := hlex.utf8ByteSize_pos
  have hsize := congrArg String.utf8ByteSize hsrc
  simp only [String.utf8ByteSize_append] at hsize
  simp only [hi, hspan, hsize] at hlo
  omega

/-! ## Sessions of a head -/

/-- The head after some steps. -/
def after (T : Tape) (h : Head) (steps : List Step) : Head :=
  steps.foldl (fun h step => (T.step h step).2) h

end Tape

/-- The records of the level `trace` among those of some outcomes. -/
def traced (outcomes : List Outcome) : List Record :=
  outcomes.flatMap fun o => o.records.filter fun r => r.level == .trace

/-- The outcome as it is when the log has the given level. -/
def Outcome.keep (level : Level) (o : Outcome) : Outcome :=
  { o with records := o.records.filter fun r => level.admits r.level }

namespace Tape

variable {T : Tape} {l : Lexer} {h : Head}

theorem filter_account (T : Tape) (h : Head) (step : Step) :
    (T.account h step).filter (fun r => r.level == .trace) =
      (T.passed h step).map .scanned := by
  have hscanned : ((T.passed h step).map Record.scanned).filter (fun r => r.level == .trace) =
      (T.passed h step).map .scanned := by
    apply List.filter_eq_self.mpr
    intro r hr
    obtain ⟨t, -, rfl⟩ := List.mem_map.mp hr
    rfl
  rw [account, List.filter_append, hscanned]
  split
  · exact List.append_nil _
  · exact List.append_nil _

theorem take_append_traced (h : Head) (steps : List Step) :
    (T.tokens.take h.index).map .scanned ++ traced (T.session h steps) =
      (T.tokens.take (T.after h steps).index).map .scanned := by
  induction steps generalizing h with
  | nil => exact List.append_nil _
  | cons step steps ih =>
      simp only [session, traced, List.flatMap_cons, filter_account]
      rw [← List.append_assoc, ← List.map_append, take_append_passed]
      exact ih _

theorem le_index_after (h : Head) (steps : List Step) :
    min h.index T.tokens.length ≤ (T.after h steps).index := by
  induction steps generalizing h with
  | nil => exact Nat.min_le_left _ _
  | cons step steps ih =>
      have hstep := le_index_step T h step
      have hrest := ih (T.step h step).2
      exact Nat.le_trans (by omega) hrest

theorem length_le_of_mem_session {steps : List Step} {o : Outcome} (ho : o ∈ T.session h steps)
    (hpos : o.position = T.source.utf8ByteSize) : T.tokens.length ≤ (T.after h steps).index := by
  induction steps generalizing h with
  | nil => cases ho
  | cons step steps ih =>
      rcases List.mem_cons.mp ho with rfl | ho
      · have hle := length_le_of_position_eq hpos
        have hafter := le_index_after (T := T) (T.step h step).2 steps
        exact Nat.le_trans (by omega) hafter
      · exact ih ho

theorem exists_mem_session {steps : List Step} (hs : steps ≠ []) :
    ∃ o ∈ T.session h steps, o.position = T.position (T.after h steps).index := by
  induction steps generalizing h with
  | nil => exact absurd rfl hs
  | cons step steps ih =>
      cases steps with
      | nil => exact ⟨_, List.mem_cons_self, rfl⟩
      | cons step' steps =>
          obtain ⟨o, ho, hpos⟩ := ih (h := (T.step h step).2) (by simp)
          exact ⟨o, List.mem_cons_of_mem _ ho, hpos⟩

/-- A session on a lexer is that of its head, but for the records that the log does not keep. -/
theorem Tracks.session (ht : T.Tracks l h) (steps : List Step) :
    l.session steps = (T.session h steps).map (Outcome.keep l.log.level) := by
  induction steps generalizing l h with
  | nil => rfl
  | cons step steps ih =>
      have hflush : T.Tracks { l with log := l.log.flush } h :=
        ⟨ht.source_eq, ht.done_eq, ht.pos_eq, ht.exists_at⟩
      obtain ⟨hanswer, htrack, hlog⟩ := hflush.step step
      have hlevel : (step.run { l with log := l.log.flush }).2.log.level = l.log.level := by
        rw [hlog, Log.level_foldl_write]
        rfl
      have hrecords := congrArg (fun log => log.records.toList) hlog
      rw [Log.toList_records_foldl_write] at hrecords
      simp only [Lexer.session, Tape.session, List.map_cons, Outcome.keep]
      rw [ih htrack, hlevel, hanswer, htrack.pos_eq, hrecords]
      rfl

end Tape

/-! ## The account of a session -/

/-- A record as it is written, its level before its message. -/
def Record.line (r : Record) : String × String := (r.level.label, r.message)

/-- The outcomes of some steps at each level agree with the tape, and their records tell which
tokens of the tape were scanned. -/
structure Accounted (T : Tape) (steps : List Step) (outcomes : Level → List Outcome) : Prop where
  session : outcomes .trace = T.session {} steps
  lines : ∀ h step, (T.account h step).map Record.line =
    (T.passed h step).map (fun t => ("TRACE",
      t.display ++ " at " ++ toString t.span.lo ++ ".." ++ toString t.span.hi)) ++
    if step = .scanAll then
      [("DEBUG", "scanned " ++ toString (T.scanAll h).1.length ++ " tokens from " ++
        toString T.source.utf8ByteSize ++ " bytes")]
    else []
  /-- Whoever has met the end token stands at the end of the source. -/
  position : (T.after {} steps).index = T.last →
    ∃ o ∈ outcomes .trace, o.position = T.source.utf8ByteSize
  once : (∃ o ∈ outcomes .trace, o.position = T.source.utf8ByteSize) →
    traced (outcomes .trace) = T.tokens.map .scanned
  filtered : ∀ level, outcomes level = (outcomes .trace).map fun o =>
    { o with records := o.records.filter fun r => level.admits r.level }
  debug : outcomes .debug = (outcomes .trace).map fun o =>
    { o with records := o.records.filter fun r => r.level == .debug }
  silent : ∀ level, level.rank ≤ Level.info.rank → ∀ o ∈ outcomes level, o.records = []
  passive : ∀ level level', (outcomes level).map (fun o => (o.answer, o.position)) =
    (outcomes level').map fun o => (o.answer, o.position)

theorem Record.debug_le_rank_level (r : Record) : Level.debug.rank ≤ r.level.rank := by
  cases r with
  | scanned t => exact Nat.le_succ _
  | drained tokens bytes => exact Nat.le_refl _

theorem Outcome.keep_trace (o : Outcome) : o.keep .trace = o := by
  have hall : o.records.filter (fun r => Level.trace.admits r.level) = o.records := by
    apply List.filter_eq_self.mpr
    intro r _
    cases r <;> rfl
  rw [keep, hall]

theorem Outcome.keep_debug (o : Outcome) :
    o.keep .debug = { o with records := o.records.filter fun r => r.level == .debug } := by
  have hsame (r : Record) : Level.debug.admits r.level = (r.level == .debug) := by
    cases r <;> rfl
  simp only [keep, hsame]

theorem Outcome.records_keep_eq_nil {level : Level} (h : level.rank ≤ Level.info.rank)
    (o : Outcome) : (o.keep level).records = [] := by
  apply List.filter_eq_nil_iff.mpr
  intro r _ hadmits
  have hrank : r.level.rank ≤ level.rank := of_decide_eq_true hadmits
  have hdebug := r.debug_le_rank_level
  exact absurd (Nat.le_trans hdebug (Nat.le_trans hrank h)) (by decide)

/-- The log of a new lexer accounts for every session on it, and changes nothing. -/
theorem session_accounted (s : String) (steps : List Step) :
    Accounted (Tape.ofSource s) steps fun level => (Lexer.ofString s level).session steps := by
  have hkeep (level : Level) : (Lexer.ofString s level).session steps =
      ((Tape.ofSource s).session {} steps).map (Outcome.keep level) :=
    (Tape.tracks_ofString s level).session steps
  have htrace : (Lexer.ofString s .trace).session steps = (Tape.ofSource s).session {} steps := by
    rw [hkeep, funext Outcome.keep_trace, List.map_id']
  have hresult (level : Level) :
      ((Lexer.ofString s level).session steps).map (fun o => (o.answer, o.position)) =
        ((Tape.ofSource s).session {} steps).map fun o => (o.answer, o.position) := by
    rw [hkeep, List.map_map]
    rfl
  constructor
  case session => exact htrace
  case lines =>
    intro h step
    rw [Tape.account, List.map_append, List.map_map]
    congr 1
    split
    · rfl
    · rfl
  case position =>
    intro hlast
    have hne : steps ≠ [] := by
      rintro rfl
      cases hlast
    obtain ⟨o, ho, hpos⟩ := Tape.exists_mem_session (T := Tape.ofSource s) (h := {}) hne
    refine ⟨o, htrace ▸ ho, ?_⟩
    rw [hpos, hlast]
    simp [Tape.position, Tape.last]
  case once =>
    rintro ⟨o, ho, hpos⟩
    rw [htrace] at ho ⊢
    have hlen := Tape.length_le_of_mem_session ho hpos
    have htraced := Tape.take_append_traced (T := Tape.ofSource s) {} steps
    rwa [List.take_of_length_le hlen] at htraced
  case filtered =>
    intro level
    rw [htrace, hkeep]
    rfl
  case debug => rw [htrace, hkeep, funext Outcome.keep_debug]
  case silent =>
    intro level hlevel o ho
    rw [hkeep] at ho
    obtain ⟨o, -, rfl⟩ := List.mem_map.mp ho
    exact Outcome.records_keep_eq_nil hlevel o
  case passive =>
    intro level level'
    rw [hresult, hresult]

end TokenStream
