import TokenStream.Proofs.Checked
import TokenStream.Proofs.Restart

/-!
# Progress

The loops of a scan look at one byte at a time, and past the end they see a zero, which a source can
hold as well. They stop at the end all the same, since zero is in no class of bytes, while the end
token depends on the offset alone. Each scan before it takes in a character that is no blank, which
bounds the number of scans.
-/

namespace TokenStream

/-! ## Loops over bytes -/

namespace Source

/-- The loop that moves on as long as it sees a byte of the class `p` goes from `i` to `j`. -/
inductive Loop (p : UInt8 → Bool) (s : String) : Nat → Nat → Prop
  | stop {i : Nat} : p (peek s i) = false → Loop p s i i
  | move {i j : Nat} : p (peek s i) = true → Loop p s (i + 1) j → Loop p s i j

variable {p : UInt8 → Bool} {s : String} {i j k : Nat}

theorem Loop.unique (h : Loop p s i j) (h' : Loop p s i k) : j = k := by
  induction h with
  | stop hp =>
      cases h' with
      | stop _ => rfl
      | move hp' _ => rw [hp] at hp'; cases hp'
  | move hp _ ih =>
      cases h' with
      | stop hp' => rw [hp] at hp'; cases hp'
      | move _ hrest => exact ih hrest

/-- A loop ends if zero is not in its class. -/
theorem loop_runEnd (hp : p 0 = false) (s : String) (i : Nat) : Loop p s i (runEnd p s i) := by
  apply runEnd_induction hp (motive := Loop p s)
  case stop =>
    intro i h
    exact .stop h
  case move =>
    intro i j h _ hrest
    exact .move h hrest

theorem loop_iff (hp : p 0 = false) : Loop p s i j ↔ j = runEnd p s i := by
  constructor
  · intro h
    exact h.unique (loop_runEnd hp s i)
  · rintro rfl
    exact loop_runEnd hp s i

end Source

open Source

/-! ## The loops of a scan -/

theorem isWordStart_eq_false_of_isDigit {b : UInt8} (h : isDigit b = true) :
    isWordStart b = false := by
  have h5f : (0x5f : UInt8).toNat = 0x5f := rfl
  simp [isDigit, isWordStart, UInt8.le_iff_toNat_le, ← UInt8.toNat_inj] at h ⊢
  omega

namespace Cursor

/-- The loops of a scan end where it finds its lexeme and where it goes on, within the source. -/
structure LoopsEnd (c : Cursor) : Prop where
  blanks : ∀ i, Loop isBlank c.source c.pos i ↔ i = c.scan.2.start
  word : isWordStart (peek c.source c.scan.2.start) = true →
    ∀ i, Loop isWordByte c.source c.scan.2.start i ↔ i = c.scan.2.pos
  number : isDigit (peek c.source c.scan.2.start) = true →
    ∀ i, Loop isDigit c.source c.scan.2.start i ↔ i = c.scan.2.pos
  start_le : c.scan.2.start ≤ c.scan.2.pos
  pos_le : c.scan.2.pos ≤ c.source.utf8ByteSize

variable {c : Cursor} {p r : String}

theorem start_scan (c : Cursor) : c.scan.2.start = runEnd isBlank c.source c.pos := by
  simp only [scan]
  split <;> rfl

/-- Where a scan sees a byte of a class without zero, it goes on behind the lexeme of that byte. -/
theorem pos_scan {q : UInt8 → Bool} (hzero : q 0 = false)
    (h : q (peek c.source c.scan.2.start) = true) :
    c.scan.2.pos =
      (LexemeClass.ofByte (peek c.source c.scan.2.start)).lexemeEnd c.source c.scan.2.start := by
  rw [start_scan] at h ⊢
  -- past the end it would have seen a zero
  simp only [scan, byte?_of_peek hzero h]

theorem At.loopsEnd (h : c.At p r) : c.LoopsEnd := by
  have hscans := h.scans
  constructor
  case blanks =>
    intro i
    rw [start_scan]
    exact loop_iff rfl
  case word =>
    intro hword i
    rw [pos_scan (q := isWordStart) rfl hword, LexemeClass.ofByte, if_pos hword]
    exact loop_iff rfl
  case number =>
    intro hdigit i
    have hword := isWordStart_eq_false_of_isDigit hdigit
    rw [pos_scan (q := isDigit) rfl hdigit, LexemeClass.ofByte, hword,
      if_neg Bool.false_ne_true, if_pos hdigit]
    exact loop_iff rfl
  case start_le => exact hscans.placed.start_le
  case pos_le =>
    rw [← hscans.source_eq]
    exact hscans.placed.pos_le

/-! ## One scan -/

theorem At.slice?_eq (h : c.At p r) : slice? c.source c.pos c.source.utf8ByteSize = some r := by
  have hslice := slice?_append p r ""
  rw [String.append_empty, ← String.utf8ByteSize_append, ← h.source_eq] at hslice
  rw [h.pos_eq]
  exact hslice

/-- The end token stands for a rest of blanks, whatever else its bytes are. -/
theorem At.isEof_scan_iff (h : c.At p r) : c.scan.1.isEof = true ↔ IsBlankText r := by
  rcases isBlankText_or_exists_lexeme r with hr | ⟨w, k, x, t, rfl, hw, hx, ht⟩
  · rw [h.scan_of_isBlankText hr]
    exact iff_of_true rfl hr
  · have hk : c.scan.1.isEof = false := by
      rw [h.scan_of_isLexeme hw hx ht]
      simpa [Token.isEof] using hx.kind_ne_eof
    rw [hk]
    refine iff_of_false Bool.false_ne_true ?_
    intro hblank
    obtain ⟨d, ds, hd⟩ := hx.exists_cons
    have hspace := hblank d (by simp [hd])
    rw [hx.isWhitespace_eq_false d (by simp [hd])] at hspace
    cases hspace

theorem At.lt_pos_scan (h : c.At p r) (heof : c.scan.1.isEof = false) :
    c.pos < c.scan.2.pos := by
  have hlt := remaining_scan_lt heof
  have hle := h.isBoundary.le
  rw [remaining, remaining, h.scans.source_eq] at hlt
  omega

end Cursor

/-! ## The number of scans -/

/-- The loop that scans up to the first end token makes `n` scans, which give the tokens `ts` and
leave the lexer `l'`. -/
inductive Lexer.Drains : Lexer → Nat → List Token → Lexer → Prop
  | last {l : Lexer} : l.scan.1.isEof = true → Drains l 1 [l.scan.1] l.scan.2
  | more {l l' : Lexer} {n : Nat} {ts : List Token} :
      l.scan.1.isEof = false → Drains l.scan.2 n ts l' → Drains l (n + 1) (l.scan.1 :: ts) l'

namespace Lexer

variable {l l' : Lexer} {n : Nat} {ts : List Token}

theorem Drains.unique {m : Nat} {us : List Token} {l'' : Lexer} (h : l.Drains n ts l')
    (h' : l.Drains m us l'') : n = m ∧ ts = us ∧ l' = l'' := by
  induction h generalizing m us with
  | last hend =>
      cases h' with
      | last _ => exact ⟨rfl, rfl, rfl⟩
      | more hmore _ => rw [hend] at hmore; cases hmore
  | more hmore _ ih =>
      cases h' with
      | last hend => rw [hend] at hmore; cases hmore
      | more _ hrest =>
          obtain ⟨rfl, rfl, rfl⟩ := ih hrest
          exact ⟨rfl, rfl, rfl⟩

theorem drains_drain (l : Lexer) (pulled : Array Token) :
    l.Drains l.toCursor.rest.length l.toCursor.rest (l.drain pulled).2 := by
  fun_induction drain l pulled with
  | case1 l pulled hend =>
      rw [Cursor.rest_of_isEof hend]
      exact .last hend
  | case2 l pulled hmore _ ih =>
      rw [Cursor.rest_of_not_isEof hmore]
      exact .more (Bool.eq_false_iff.mpr hmore) ih

end Lexer

/-- What is ahead of a lexer takes one scan for each token, and the log is told how many. -/
theorem Tape.Tracks.drains {T : Tape} {l : Lexer} {h : Head} (ht : T.Tracks l h) :
    let n := 1 + (T.tokens.drop h.index).length
    ∃ l', l.Drains n l.scanAll.1 l' ∧
      l.scanAll.2 = { l' with log := l'.log.write (.drained n T.source.utf8ByteSize) } := by
  intro n
  obtain ⟨p, r, hat, hreads⟩ := ht.exists_at
  have hlength : l.toCursor.rest.length = n := by
    rw [hreads.rest_eq hat rfl, List.length_append, List.length_singleton, Nat.add_comm]
  have hdrains := l.drains_drain #[]
  rw [hlength, ← l.fst_scanAll] at hdrains
  refine ⟨(l.drain #[]).2, hdrains, ?_⟩
  have hsize : (l.drain #[]).1.size = n := by
    rw [← hlength, ← Array.length_toList, l.toList_fst_drain]
    rfl
  rw [Lexer.scanAll, hsize, (ht.drain #[]).source_eq]

/-! ## The number of characters -/

/-- How many characters of a text are no blanks. -/
def inkCount (r : String) : Nat := r.toList.countP fun c => !c.isWhitespace

theorem inkCount_append (r t : String) : inkCount (r ++ t) = inkCount r + inkCount t := by
  simp [inkCount]

theorem IsBlankText.inkCount_eq {w : String} (h : IsBlankText w) : inkCount w = 0 := by
  rw [inkCount, List.countP_eq_zero]
  intro c hc
  simp [h c hc]

theorem IsLexeme.inkCount_eq {k : Kind} {x : String} (h : IsLexeme k x) :
    inkCount x = x.length := by
  rw [inkCount, ← String.length_toList, List.countP_eq_length]
  intro c hc
  simp [h.isWhitespace_eq_false c hc]

theorem IsLexeme.length_pos {k : Kind} {x : String} (h : IsLexeme k x) : 0 < x.length := by
  obtain ⟨c, cs, hx⟩ := h.exists_cons
  rw [← String.length_toList, hx]
  exact Nat.succ_pos _

/-- Each token takes in one character at least. -/
theorem Reads.length_le_inkCount {o : Nat} {r : String} {ts : List Token} (h : Reads o r ts) :
    ts.length ≤ inkCount r ∧ (ts.length = inkCount r ↔ ∀ t ∈ ts, t.text.length = 1) := by
  induction h with
  | stop hw => simp [hw.inkCount_eq]
  | @step o w x t k ts hw hx _ _ ih =>
      obtain ⟨hle, hiff⟩ := ih
      have hpos := hx.length_pos
      have hcount : inkCount (w ++ (x ++ t)) = x.length + inkCount t := by
        rw [inkCount_append, inkCount_append, hw.inkCount_eq, hx.inkCount_eq, Nat.zero_add]
      rw [hcount, List.length_cons, List.forall_mem_cons, ← hiff]
      simp only
      omega

/-- After any steps, the loops of a scan end within the source; a scan gives the end token exactly
in front of blanks alone, and moves on otherwise; and pulling all the rest takes one scan for the
end token and at most one for each character that is no blank, that many exactly if all tokens are
single characters. -/
theorem scans_progress (s : String) (level : Level) (past : List Step) :
    let l := (Lexer.ofString s level).after past
    ∃ r, slice? s l.pos s.utf8ByteSize = some r ∧
      l.toCursor.LoopsEnd ∧
      (l.scan.1.isEof = true ↔ IsBlankText r) ∧
      ('\x00' ∈ r.toList → l.scan.1.isEof = false) ∧
      (l.scan.1.isEof = false → l.pos < l.scan.2.pos) ∧
      ∃ k l', l.Drains (1 + k) l.scanAll.1 l' ∧
        (∀ n ts l'', l.Drains n ts l'' → n = 1 + k) ∧
        l.scanAll.2 = { l' with log := l'.log.write (.drained (1 + k) s.utf8ByteSize) } ∧
        k ≤ inkCount r ∧
        (k = inkCount r ↔ ∀ t ∈ l.scanAll.1, t.isEof = false → t.text.length = 1) := by
  intro l
  have htrack : (Tape.ofSource s).Tracks l ((Tape.ofSource s).after {} past) :=
    (Lexer.tracks_after (Tape.tracks_ofString s level) past).1
  obtain ⟨p, r, hat, hreads⟩ := htrack.exists_at
  obtain ⟨l', hdrains, hlog⟩ := htrack.drains
  obtain ⟨hle, heq⟩ := hreads.length_le_inkCount
  refine ⟨r, ?_, hat.loopsEnd, hat.isEof_scan_iff, ?_, hat.lt_pos_scan, _, l', hdrains, ?_, hlog,
    hle, ?_⟩
  · have hslice := hat.slice?_eq
    rwa [htrack.source_eq] at hslice
  · intro hzero
    refine Bool.eq_false_iff.mpr fun heof => ?_
    have hblank := hat.isEof_scan_iff.mp heof _ hzero
    cases hblank
  · intro n ts l'' h
    exact (h.unique hdrains).1
  · rw [heq, l.fst_scanAll, hreads.rest_eq hat rfl, List.forall_mem_append]
    constructor
    · intro hsingle
      refine ⟨fun t ht _ => hsingle t ht, ?_⟩
      intro t ht heof
      rw [List.mem_singleton.mp ht] at heof
      cases heof
    · rintro ⟨hsingle, -⟩ t ht
      exact hsingle t ht (hreads.isEof_eq_false ht)

end TokenStream
