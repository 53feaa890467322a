import TokenStream.Lexer.Session
import TokenStream.Proofs.Reading

/-!
# Calls on a lexer and the tape of its tokens

A tape is a source with its tokens, and a head is an index on it with a flag. A lexer on which calls
are made in any order answers as a head on the tape of its source does. What holds for all runs is
then a matter of the tape alone: the tokens that are given out are its first ones, in order, and
`next` gives no token behind an end token of its own.
-/

namespace TokenStream

/-! ## Calls -/

inductive Call where
  | scan
  | next
  | scanAll
  | position
  | source
deriving DecidableEq, Repr

def Call.run (l : Lexer) : Call → Answer × Lexer
  | scan => l.scan.map .token id
  | next => l.next.map .token? id
  | scanAll => l.scanAll.map .tokens id
  | position => (.number l.pos, l)
  | source => (.text l.source, l)

/-- Makes calls one after another, by what each call does to a state. -/
def Call.runAll {σ : Type} (step : σ → Call → Answer × σ) (x : σ) :
    List Call → List Answer × σ
  | [] => ([], x)
  | call :: calls =>
    let r := step x call
    let rs := runAll step r.2 calls
    (r.1 :: rs.1, rs.2)

def Answer.lexemes : Answer → List Token
  | token t => [t].filter fun t => !t.isEof
  | token? t => t.toList.filter fun t => !t.isEof
  | tokens ts => ts.filter fun t => !t.isEof
  | number _ => []
  | text _ => []

/-- The answer of `next` that closes a stream. -/
def Answer.closes : Answer → Bool
  | token? (some t) => t.isEof
  | _ => false

/-- The answer of `next` that gives a token. -/
def Answer.isSome : Answer → Bool
  | token? t => t.isSome
  | _ => false

/-! ## Tapes -/

/-- A source and its tokens, without the end token. -/
structure Tape where
  source : String
  tokens : List Token
  reads : Reads 0 source tokens

/-- The place of a head on a tape: the number of tokens behind it, one more once it has met the end,
and whether `next` has given the end token. -/
structure Head where
  index : Nat := 0
  done : Bool := false
deriving DecidableEq, Repr

namespace Tape

/-- The tape of what a new lexer gives for a source. -/
def ofSource (s : String) : Tape where
  source := s
  tokens := (Lexer.ofString s).scanAll.1.dropLast
  reads := by
    obtain ⟨ts, hts⟩ := exists_reads 0 s
    rwa [Lexer.scanAll_eq_iff.mpr hts, List.dropLast_concat]

def eof (T : Tape) : Token := .eof T.source.utf8ByteSize

/-- Where a head is: behind the last token that it has passed, or at the end. -/
def position (T : Tape) : Nat → Nat
  | 0 => 0
  | k + 1 => (T.tokens[k]?).elim T.source.utf8ByteSize fun t => t.span.hi

def last (T : Tape) : Nat := T.tokens.length + 1

def scan (T : Tape) (h : Head) : Token × Head :=
  match T.tokens[h.index]? with
  | some t => (t, { h with index := h.index + 1 })
  | none => (T.eof, { h with index := T.last })

def next (T : Tape) (h : Head) : Option Token × Head :=
  if h.done then (none, h)
  else
    let r := T.scan h
    (some r.1, { r.2 with done := r.1.isEof })

def scanAll (T : Tape) (h : Head) : List Token × Head :=
  (T.tokens.drop h.index ++ [T.eof], { h with index := T.last })

def run (T : Tape) (h : Head) : Call → Answer × Head
  | .scan => (T.scan h).map .token id
  | .next => (T.next h).map .token? id
  | .scanAll => (T.scanAll h).map .tokens id
  | .position => (.number (T.position h.index), h)
  | .source => (.text T.source, h)

/-! ## Heads and lexers -/

/-- A lexer stands where a head does: what is in front of it reads as the rest of the tape. -/
structure Tracks (T : Tape) (l : Lexer) (h : Head) : Prop where
  source_eq : l.source = T.source
  done_eq : l.done = h.done
  pos_eq : l.pos = T.position h.index
  exists_at : ∃ p r, l.toCursor.At p r ∧ Reads p.utf8ByteSize r (T.tokens.drop h.index)

variable {T : Tape} {l : Lexer} {h : Head}

theorem tracks_ofString (s : String) (level : Level) :
    (ofSource s).Tracks (Lexer.ofString s level) {} where
  source_eq := rfl
  done_eq := rfl
  pos_eq := rfl
  exists_at := ⟨"", s, Lexer.ofString_at s level, (ofSource s).reads⟩

theorem isEof_eq_false {t : Token} (ht : t ∈ T.tokens) : t.isEof = false :=
  T.reads.isEof_eq_false ht

theorem scan_of_some {t : Token} (ht : T.tokens[h.index]? = some t) :
    T.scan h = (t, { h with index := h.index + 1 }) := by
  simp only [scan, ht]

theorem scan_of_none (ht : T.tokens[h.index]? = none) :
    T.scan h = (T.eof, { h with index := T.last }) := by
  simp only [scan, ht]

theorem tracks_last (hs : l.source = T.source) (hd : l.done = h.done)
    (hpos : l.pos = T.source.utf8ByteSize) : T.Tracks l { h with index := T.last } where
  source_eq := hs
  done_eq := hd
  pos_eq := by simp [position, last, hpos]
  exists_at := by
    have hrest : T.tokens.drop T.last = [] := List.drop_eq_nil_of_le (Nat.le_succ _)
    refine ⟨l.source, "", ⟨String.append_empty.symm, by rw [hpos, hs]⟩, ?_⟩
    simp only [hrest]
    exact .stop isBlankText_empty

theorem Tracks.scan (ht : T.Tracks l h) :
    l.scan.1 = (T.scan h).1 ∧ T.Tracks l.scan.2 (T.scan h).2 := by
  obtain ⟨hs, hd, -, p, r, hat, hr⟩ := ht
  generalize hrest : T.tokens.drop h.index = ts at hr
  have hhead : T.tokens[h.index]? = ts.head? := by rw [← hrest, List.head?_drop]
  have htail : T.tokens.drop (h.index + 1) = ts.tail := by rw [← hrest, List.tail_drop]
  cases hr with
  | stop hw =>
      have hscan := hat.scan_of_isBlankText hw
      rw [scan_of_none hhead, Lexer.fst_scan, hscan, hs]
      refine ⟨rfl, tracks_last ?_ hd ?_⟩
      · rw [Lexer.toCursor_scan, hscan, hs]
      · rw [Lexer.toCursor_scan, hscan, hs]
  | @step _ w x t k ts hw hx hmax hts =>
      have hscan := hat.scan_of_isLexeme hw hx hmax
      rw [scan_of_some hhead, Lexer.fst_scan, hscan]
      refine ⟨rfl, ?_, hd, ?_, p ++ w ++ x, t, ?_, ?_⟩
      · rw [Lexer.toCursor_scan, hscan, hs]
      · rw [Lexer.toCursor_scan, hscan]
        simp [position, hhead]
      · rw [Lexer.toCursor_scan, hscan]
        exact hat.behind _
      · rw [htail]
        simpa [String.utf8ByteSize_append] using hts

/-- What scans keep between a lexer and a head is kept when the lexer is drained. -/
theorem drain_of_scan {P : Lexer → Head → Prop}
    (hscan : ∀ l h, P l h → l.scan.1 = (T.scan h).1 ∧ P l.scan.2 (T.scan h).2) (hP : P l h)
    (pulled : Array Token) : P (l.drain pulled).2 { h with index := T.last } := by
  fun_induction Lexer.drain l pulled generalizing h with
  | case1 l pulled heof =>
      obtain ⟨hfst, hsnd⟩ := hscan l h hP
      cases hk : T.tokens[h.index]? with
      | none => rwa [scan_of_none hk] at hsnd
      | some t =>
          rw [hfst, scan_of_some hk, isEof_eq_false (List.mem_of_getElem? hk)] at heof
          cases heof
  | case2 l pulled heof _ ih =>
      obtain ⟨hfst, hsnd⟩ := hscan l h hP
      cases hk : T.tokens[h.index]? with
      | none =>
          rw [hfst, scan_of_none hk] at heof
          exact absurd rfl heof
      | some t =>
          rw [scan_of_some hk] at hsnd
          have hend := ih hsnd
          exact hend

theorem Tracks.drain (ht : T.Tracks l h) (pulled : Array Token) :
    T.Tracks (l.drain pulled).2 { h with index := T.last } :=
  drain_of_scan (fun _ _ => Tracks.scan) ht pulled

theorem Tracks.scanAll (ht : T.Tracks l h) :
    l.scanAll.1 = (T.scanAll h).1 ∧ T.Tracks l.scanAll.2 (T.scanAll h).2 := by
  obtain ⟨hs, hd, hpos, hat⟩ := ht.drain #[]
  refine ⟨?_, hs, hd, hpos, hat⟩
  obtain ⟨p, r, hat, hr⟩ := ht.exists_at
  rw [Lexer.fst_scanAll, hr.rest_eq hat rfl, ht.source_eq]
  rfl

theorem Tracks.next (ht : T.Tracks l h) :
    l.next.1 = (T.next h).1 ∧ T.Tracks l.next.2 (T.next h).2 := by
  obtain ⟨hfst, hs, hd, hpos, hat⟩ := ht.scan
  unfold Lexer.next Tape.next
  rw [ht.done_eq]
  cases h.done with
  | true => exact ⟨rfl, ht⟩
  | false => exact ⟨congrArg some hfst, hs, congrArg Token.isEof hfst, hpos, hat⟩

/-- Each call gives the answer of the tape and moves the lexer as it moves the head. -/
theorem Tracks.run (ht : T.Tracks l h) (call : Call) :
    (call.run l).1 = (T.run h call).1 ∧ T.Tracks (call.run l).2 (T.run h call).2 := by
  cases call with
  | scan => exact ⟨congrArg Answer.token ht.scan.1, ht.scan.2⟩
  | next => exact ⟨congrArg Answer.token? ht.next.1, ht.next.2⟩
  | scanAll => exact ⟨congrArg Answer.tokens ht.scanAll.1, ht.scanAll.2⟩
  | position => exact ⟨congrArg Answer.number ht.pos_eq, ht⟩
  | source => exact ⟨congrArg Answer.text ht.source_eq, ht⟩

theorem Tracks.runAll (ht : T.Tracks l h) (calls : List Call) :
    (Call.runAll Call.run l calls).1 = (Call.runAll T.run h calls).1 ∧
      T.Tracks (Call.runAll Call.run l calls).2 (Call.runAll T.run h calls).2 := by
  induction calls generalizing l h with
  | nil => exact ⟨rfl, ht⟩
  | cons call calls ih =>
      obtain ⟨hfst, hsnd⟩ := ht.run call
      obtain ⟨hanswers, hend⟩ := ih hsnd
      simp only [Call.runAll]
      rw [hfst, hanswers]
      exact ⟨rfl, hend⟩

/-! ## Runs of a head -/

theorem take_last (T : Tape) : T.tokens.take T.last = T.tokens :=
  List.take_of_length_le (Nat.le_succ _)

theorem filter_eof (T : Tape) : [T.eof].filter (fun t => !t.isEof) = [] := rfl

theorem take_append_scan (h : Head) :
    T.tokens.take h.index ++ [(T.scan h).1].filter (fun t => !t.isEof) =
      T.tokens.take (T.scan h).2.index := by
  cases hk : T.tokens[h.index]? with
  | none =>
      have hle := List.getElem?_eq_none_iff.mp hk
      rw [scan_of_none hk, filter_eof, List.append_nil, take_last, List.take_of_length_le hle]
  | some t =>
      have ht : t.isEof = false := isEof_eq_false (List.mem_of_getElem? hk)
      rw [scan_of_some hk, List.take_add_one, hk]
      simp [ht]

theorem take_append_scanAll (h : Head) :
    T.tokens.take h.index ++ (T.scanAll h).1.filter (fun t => !t.isEof) =
      T.tokens.take (T.scanAll h).2.index := by
  have hrest : (T.tokens.drop h.index).filter (fun t => !t.isEof) = T.tokens.drop h.index := by
    apply List.filter_eq_self.mpr
    intro t ht
    rw [isEof_eq_false (List.mem_of_mem_drop ht)]
    rfl
  simp only [scanAll]
  rw [List.filter_append, filter_eof, List.append_nil, hrest, List.take_append_drop, take_last]

theorem take_append_run (h : Head) (call : Call) :
    T.tokens.take h.index ++ (T.run h call).1.lexemes =
      T.tokens.take (T.run h call).2.index := by
  cases call with
  | scan => exact take_append_scan h
  | next =>
      cases hd : h.done with
      | true => simp [run, next, hd, Answer.lexemes]
      | false =>
          simp only [run, next, hd]
          exact take_append_scan h
  | scanAll => exact take_append_scanAll h
  | position => exact List.append_nil _
  | source => exact List.append_nil _

theorem take_append_runAll (h : Head) (calls : List Call) :
    T.tokens.take h.index ++ (Call.runAll T.run h calls).1.flatMap Answer.lexemes =
      T.tokens.take (Call.runAll T.run h calls).2.index := by
  induction calls generalizing h with
  | nil => exact List.append_nil _
  | cons call calls ih =>
      simp only [Call.runAll, List.flatMap_cons]
      rw [← List.append_assoc, take_append_run, ih]

theorem run_of_done (hd : h.done = true) (call : Call) :
    (T.run h call).2.done = true ∧ (T.run h call).1.isSome = false := by
  cases call with
  | scan =>
      refine ⟨?_, rfl⟩
      simp only [run, Prod.map_snd, id, scan]
      split <;> exact hd
  | next => simp [run, next, hd, Answer.isSome]
  | scanAll => exact ⟨hd, rfl⟩
  | position => exact ⟨hd, rfl⟩
  | source => exact ⟨hd, rfl⟩

theorem runAll_of_done (hd : h.done = true) (calls : List Call) :
    ∀ a ∈ (Call.runAll T.run h calls).1, a.isSome = false := by
  induction calls generalizing h with
  | nil =>
      intro a ha
      cases ha
  | cons call calls ih =>
      obtain ⟨hd', hsome⟩ := run_of_done (T := T) hd call
      intro a ha
      rcases List.mem_cons.mp ha with rfl | ha
      · exact hsome
      · exact ih hd' a ha

theorem done_of_closes {call : Call} (h' : (T.run h call).1.closes = true) :
    (T.run h call).2.done = true := by
  cases call with
  | next =>
      cases hd : h.done with
      | true => simp [run, next, hd]
      | false => simpa [run, next, hd, Answer.closes] using h'
  | scan => cases h'
  | scanAll => cases h'
  | position => cases h'
  | source => cases h'

theorem pairwise_runAll (h : Head) (calls : List Call) :
    (Call.runAll T.run h calls).1.Pairwise fun a b => a.closes = true → b.isSome = false := by
  induction calls generalizing h with
  | nil => exact List.Pairwise.nil
  | cons call calls ih =>
      refine List.Pairwise.cons ?_ (ih _)
      intro b hb hclose
      exact runAll_of_done (done_of_closes hclose) calls b hb

end Tape

/-- Calls in any order on a new lexer do what they do on the tape of its source. So its answers give
out the first tokens of the tape, each once and in order, and once `next` has given an end token it
gives nothing more. -/
theorem runAll_refines_tape (s : String) (level : Level) (calls : List Call) :
    let T := Tape.ofSource s
    let l := Lexer.ofString s level
    let real := Call.runAll Call.run l calls
    let ideal := Call.runAll T.run {} calls
    l.scanAll.1 = T.tokens ++ [T.eof] ∧
      (real.1 = ideal.1 ∧ T.Tracks real.2 ideal.2) ∧
      real.1.flatMap Answer.lexemes = T.tokens.take ideal.2.index ∧
      real.1.Pairwise fun a b => a.closes = true → b.isSome = false := by
  obtain ⟨hanswers, hend⟩ := (Tape.tracks_ofString s level).runAll calls
  refine ⟨Lexer.scanAll_eq_iff.mpr (Tape.ofSource s).reads, ⟨hanswers, hend⟩, ?_, ?_⟩
  · rw [hanswers, ← Tape.take_append_runAll]
    rfl
  · rw [hanswers]
    exact Tape.pairwise_runAll _ _

end TokenStream
