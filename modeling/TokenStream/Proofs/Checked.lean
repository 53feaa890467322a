import TokenStream.Proofs.Tape

/-!
# Lexers under check

A lexer under check makes the same calls, but verifies before each move that it stays in the source,
and before each cut that the cut lies between two boundaries. Its loops go by what they see alone,
and past the end that is a zero, which ends them as it is in no class of bytes. On a lexer that is
placed well no check ever fails, so that the calls do what they do without checks.
-/

namespace TokenStream

open Source

/-! ## Checks -/

/-- The check that fails, with the offsets that it is about. -/
inductive Fault where
  /-- A move past the end of the source. -/
  | overrun (pos : Nat)
  /-- A cut that is not within the source, or falls inside a character. -/
  | badCut (lo hi : Nat)
  /-- No character where one is to be measured. -/
  | noCharacter (pos : Nat)
deriving DecidableEq, Repr

instance (s : String) (i : Nat) : Decidable (IsBoundary s i) :=
  decidable_of_iff _ String.Pos.Raw.isValid_eq_true_iff

namespace Checked

def advance (s : String) (pos n : Nat) : Except Fault Nat :=
  if pos + n ≤ s.utf8ByteSize then .ok (pos + n) else .error (.overrun (pos + n))

theorem advance_eq_ok_iff {s : String} {pos n i : Nat} :
    advance s pos n = .ok i ↔ pos + n ≤ s.utf8ByteSize ∧ i = pos + n := by
  simp only [advance]
  split
  · next h => simp [h, eq_comm]
  · next h => simp [h]

def cut (s : String) (lo hi : Nat) : Except Fault String :=
  if lo ≤ hi ∧ IsBoundary s lo ∧ IsBoundary s hi then .ok ((slice? s lo hi).getD "")
  else .error (.badCut lo hi)

/-- The first character of what is cut off at an offset. -/
def character (s : String) (pos : Nat) : Except Fault Char := do
  let _ ← cut s pos s.utf8ByteSize
  match char? s pos with
  | some c => .ok c
  | none => .error (.noCharacter pos)

/-- Moves on as long as it sees a byte of the class `p`. Only the check keeps it in the source. -/
def runEnd (p : UInt8 → Bool) (s : String) (i : Nat) : Except Fault Nat :=
  if p (peek s i) then
    match h : advance s i 1 with
    | .error fault => .error fault
    | .ok j =>
      have := advance_eq_ok_iff.mp h
      runEnd p s j
  else .ok i
termination_by s.utf8ByteSize - i

def lexemeEnd (s : String) (lo : Nat) : LexemeClass → Except Fault Nat
  | .word => runEnd isWordByte s lo
  | .number => runEnd isDigit s lo
  | .mark _ | .stray => advance s lo 1
  | .foreign => do
    let c ← character s lo
    advance s lo c.utf8Size

def scan (c : Cursor) : Except Fault (Token × Cursor) := do
  let lo ← runEnd isBlank c.source c.pos
  if c.source.utf8ByteSize ≤ lo then
    .ok (.eof c.source.utf8ByteSize, { c with start := lo, pos := lo })
  else
    let lexeme := LexemeClass.ofByte (peek c.source lo)
    let hi ← lexemeEnd c.source lo lexeme
    let text ← cut c.source lo hi
    .ok (⟨lexeme.kind text, text, ⟨lo, hi⟩⟩, { c with start := lo, pos := hi })

def pull (l : Lexer) : Except Fault (Token × Lexer) := do
  let r ← scan l.toCursor
  .ok (r.1, { l with
    toCursor := r.2
    log := if r.1.isEof then l.log else l.log.write (.scanned r.1) })

/-! ## What a check lets pass -/

theorem ok_bind {α β : Type} (a : α) (f : α → Except Fault β) : (Except.ok a >>= f) = f a := rfl

theorem bind_eq_ok_iff {α β : Type} {x : Except Fault α} {f : α → Except Fault β} {b : β} :
    (x >>= f) = .ok b ↔ ∃ a, x = .ok a ∧ f a = .ok b := by
  cases x with
  | error e => simp [bind, Except.bind]
  | ok a => simp [bind, Except.bind]

theorem cut_eq_ok_iff {s t : String} {lo hi : Nat} :
    cut s lo hi = .ok t ↔
      (lo ≤ hi ∧ IsBoundary s lo ∧ IsBoundary s hi) ∧ t = (slice? s lo hi).getD "" := by
  simp only [cut]
  split
  · next h => simp [h, eq_comm]
  · next h => simp [h]

theorem character_eq_ok_iff {s : String} {c : Char} {pos : Nat} :
    character s pos = .ok c ↔ IsBoundary s pos ∧ char? s pos = some c := by
  have hend : IsBoundary s s.utf8ByteSize := String.Pos.Raw.isValid_rawEndPos
  simp only [character, bind_eq_ok_iff, cut_eq_ok_iff]
  constructor
  · rintro ⟨t, ⟨⟨-, hpos, -⟩, -⟩, hc⟩
    split at hc
    · next c' h =>
      rw [Except.ok.injEq] at hc
      exact ⟨hpos, hc ▸ h⟩
    · cases hc
  · rintro ⟨hpos, hc⟩
    refine ⟨_, ⟨⟨hpos.le, hpos, hend⟩, rfl⟩, ?_⟩
    rw [hc]

section

variable {p : UInt8 → Bool} {s : String} {i : Nat}

theorem runEnd_of_peek_eq_false (h : p (peek s i) = false) : runEnd p s i = .ok i := by
  rw [runEnd, if_neg (Bool.eq_false_iff.mp h)]

theorem runEnd_of_peek (h : p (peek s i) = true) (hi : i < s.utf8ByteSize) :
    runEnd p s i = runEnd p s (i + 1) := by
  have hadvance : advance s i 1 = .ok (i + 1) := advance_eq_ok_iff.mpr ⟨hi, rfl⟩
  conv => lhs; rw [runEnd, if_pos h]
  split
  · next fault hfault => rw [hadvance] at hfault; cases hfault
  · next j hj =>
    obtain rfl := Except.ok.inj (hadvance.symm.trans hj)
    rfl

/-- No check fails in a run of a class without zero. -/
theorem runEnd_eq (hp : p 0 = false) (s : String) (i : Nat) :
    runEnd p s i = .ok (Source.runEnd p s i) := by
  apply runEnd_induction hp (motive := fun i j => runEnd p s i = .ok j)
  case stop =>
    intro i h
    exact runEnd_of_peek_eq_false h
  case move =>
    intro i j h hi ih
    rw [runEnd_of_peek h hi, ih]

-- with zero in its class a run goes on past the end
example : runEnd (fun _ => true) "" 0 = .error (.overrun 1) := by
  rw [runEnd]
  rfl

end

theorem eq_lexemeEnd_of_ok {s : String} {lo hi : Nat} {lexeme : LexemeClass}
    (h : lexemeEnd s lo lexeme = .ok hi) : hi = lexeme.lexemeEnd s lo := by
  cases lexeme with
  | word =>
      rw [lexemeEnd, runEnd_eq rfl, Except.ok.injEq] at h
      exact h.symm
  | number =>
      rw [lexemeEnd, runEnd_eq rfl, Except.ok.injEq] at h
      exact h.symm
  | mark k => exact (advance_eq_ok_iff.mp h).2
  | stray => exact (advance_eq_ok_iff.mp h).2
  | foreign =>
      obtain ⟨c, hc, hhi⟩ := bind_eq_ok_iff.mp h
      rw [LexemeClass.lexemeEnd, (character_eq_ok_iff.mp hc).2]
      exact (advance_eq_ok_iff.mp hhi).2

/-- A lexeme that begins at a boundary is found with no check failing. -/
theorem lexemeEnd_of_byte? {s : String} {lo : Nat} {b : UInt8} (hlo : IsBoundary s lo)
    (hb : byte? s lo = some b) (lexeme : LexemeClass) :
    lexemeEnd s lo lexeme = .ok (lexeme.lexemeEnd s lo) := by
  have hlt : lo + 1 ≤ s.utf8ByteSize := lt_utf8ByteSize_of_byte? hb
  cases lexeme with
  | word => exact runEnd_eq rfl _ _
  | number => exact runEnd_eq rfl _ _
  | mark k => exact advance_eq_ok_iff.mpr ⟨hlt, rfl⟩
  | stray => exact advance_eq_ok_iff.mpr ⟨hlt, rfl⟩
  | foreign =>
      obtain ⟨p, r, rfl, rfl⟩ := isBoundary_iff.mp hlo
      cases hr : r.toList with
      | nil =>
          rw [String.toList_eq_nil_iff] at hr
          subst hr
          rw [String.append_empty] at hlt
          omega
      | cons c cs =>
          obtain rfl := eq_singleton_append hr
          have hc := char?_append p (String.ofList cs) c
          refine bind_eq_ok_iff.mpr ⟨c, character_eq_ok_iff.mpr ⟨hlo, hc⟩, ?_⟩
          rw [LexemeClass.lexemeEnd, hc]
          refine advance_eq_ok_iff.mpr ⟨?_, rfl⟩
          simp only [String.utf8ByteSize_append, String.utf8ByteSize_singleton]
          omega

-- behind the first byte of a character of two, the offset is no boundary
example : lexemeEnd "é" 1 .foreign = .error (.badCut 1 2) := rfl

/-- A scan under check is the scan, as long as the lexeme that it finds, if any, is found with no
check failing and lies between two boundaries. -/
theorem scan_eq_ok_iff {c : Cursor} {r : Token × Cursor} :
    scan c = .ok r ↔ r = c.scan ∧
      let lo := Source.runEnd isBlank c.source c.pos
      ∀ b, byte? c.source lo = some b →
        let hi := (LexemeClass.ofByte b).lexemeEnd c.source lo
        lexemeEnd c.source lo (LexemeClass.ofByte b) = .ok hi ∧
          lo ≤ hi ∧ IsBoundary c.source lo ∧ IsBoundary c.source hi := by
  have hblank : isBlank 0 = false := rfl
  simp only [scan, Cursor.scan, runEnd_eq hblank]
  generalize Source.runEnd isBlank c.source c.pos = lo
  rw [ok_bind]
  cases hbyte : byte? c.source lo with
  | none =>
      rw [if_pos (byte?_eq_none_iff.mp hbyte)]
      simp [eq_comm]
  | some b =>
      rw [if_neg (Nat.not_le.mpr (lt_utf8ByteSize_of_byte? hbyte)), peek_of_byte? hbyte]
      simp only [bind_eq_ok_iff, cut_eq_ok_iff, Option.some.injEq]
      constructor
      · rintro ⟨hi, hhi, text, ⟨hcut, rfl⟩, hr⟩
        obtain rfl := eq_lexemeEnd_of_ok hhi
        rw [Except.ok.injEq] at hr
        refine ⟨hr.symm, ?_⟩
        rintro b' rfl
        exact ⟨hhi, hcut⟩
      · rintro ⟨rfl, hb⟩
        obtain ⟨hhi, hcut⟩ := hb b rfl
        exact ⟨_, hhi, _, ⟨hcut, rfl⟩, rfl⟩

theorem eq_scan_of_ok {l : Lexer} {r : Token × Lexer} (h : pull l = .ok r) : r = l.scan := by
  obtain ⟨r', hr', h⟩ := bind_eq_ok_iff.mp h
  obtain ⟨rfl, -⟩ := scan_eq_ok_iff.mp hr'
  rw [Except.ok.injEq] at h
  exact h.symm

theorem remaining_lt_of_ok {l : Lexer} {r : Token × Lexer} (h : pull l = .ok r)
    (ht : r.1.isEof = false) : r.2.remaining < l.remaining := by
  obtain rfl := eq_scan_of_ok h
  exact Cursor.remaining_scan_lt ht

/-! ## Calls under check -/

def drain (l : Lexer) (pulled : Array Token) : Except Fault (Array Token × Lexer) :=
  match h : pull l with
  | .error e => .error e
  | .ok r =>
    if ht : r.1.isEof then .ok (pulled.push r.1, r.2)
    else
      have := remaining_lt_of_ok h (Bool.eq_false_iff.mpr ht)
      drain r.2 (pulled.push r.1)
termination_by l.remaining

theorem drain_of_ok {l : Lexer} {r : Token × Lexer} (h : pull l = .ok r) (pulled : Array Token) :
    drain l pulled = if r.1.isEof then .ok (pulled.push r.1, r.2)
      else drain r.2 (pulled.push r.1) := by
  rw [drain]
  split
  · next e he => rw [h] at he; cases he
  · next r' hr' =>
    obtain rfl := Except.ok.inj (h.symm.trans hr')
    exact dite_eq_ite

def scanAll (l : Lexer) : Except Fault (List Token × Lexer) := do
  let r ← drain l #[]
  .ok (r.1.toList, { r.2 with
    log := r.2.log.write (.drained r.1.size r.2.source.utf8ByteSize) })

def next (l : Lexer) : Except Fault (Option Token × Lexer) :=
  if l.done then .ok (none, l)
  else do
    let r ← pull l
    .ok (some r.1, { r.2 with done := r.1.isEof })

def run (l : Lexer) : Call → Except Fault (Answer × Lexer)
  | .scan => do let r ← pull l; .ok (r.map .token id)
  | .next => do let r ← next l; .ok (r.map .token? id)
  | .scanAll => do let r ← scanAll l; .ok (r.map .tokens id)
  | .position => .ok (.number l.pos, l)
  | .source => .ok (.text l.source, l)

/-- Makes calls one after another, up to the first check that fails. -/
def runAll (l : Lexer) : List Call → Except Fault (List Answer × Lexer)
  | [] => .ok ([], l)
  | call :: calls => do
    let r ← run l call
    let rs ← runAll r.2 calls
    .ok (r.1 :: rs.1, rs.2)

end Checked

/-! ## Where no check fails -/

/-- The length of the span can be taken and is that of the text. -/
def Token.Measured (t : Token) : Prop := t.span.length = .ok t.text.utf8ByteSize

theorem Token.measured_eof (pos : Nat) : (Token.eof pos).Measured :=
  Span.length_eq_ok.mpr rfl

theorem Token.measured_push {ts : Array Token} {t : Token} (hts : ∀ u ∈ ts.toList, u.Measured)
    (ht : ∀ u ∈ [t], u.Measured) : ∀ u ∈ (ts.push t).toList, u.Measured := by
  rw [Array.toList_push]
  exact List.forall_mem_append.mpr ⟨hts, ht⟩

/-- Both offsets of the cursor are boundaries of its source, in order. -/
structure Cursor.Placed (c : Cursor) : Prop where
  start_le : c.start ≤ c.pos
  pos_le : c.pos ≤ c.source.utf8ByteSize
  start_isBoundary : IsBoundary c.source c.start
  pos_isBoundary : IsBoundary c.source c.pos

/-- The cursor is placed well, and at the end once the stream is closed. -/
structure Lexer.Placed (l : Lexer) : Prop extends l.toCursor.Placed where
  pos_eq_of_done : l.done = true → l.pos = l.source.utf8ByteSize

namespace Cursor

variable {c : Cursor} {p r : String}

theorem At.isBoundary (h : c.At p r) : IsBoundary c.source c.pos :=
  isBoundary_iff.mpr ⟨p, r, h.source_eq, h.pos_eq⟩

theorem Placed.exists_at (h : c.Placed) : ∃ p r, c.At p r := by
  obtain ⟨p, r, hs, hp⟩ := isBoundary_iff.mp h.pos_isBoundary
  exact ⟨p, r, hs, hp⟩

/-- No check fails in a scan, and what it leaves behind is in order. -/
structure Scans (c : Cursor) (r : Token × Cursor) : Prop where
  checked : Checked.scan c = .ok r
  source_eq : r.2.source = c.source
  placed : r.2.Placed
  pos_le : c.pos ≤ r.2.pos
  pos_eq_of_isEof : r.1.isEof = true → r.2.pos = r.2.source.utf8ByteSize
  measured : r.1.Measured

theorem At.scans_of_isBlankText (h : c.At p r) (hr : IsBlankText r) : c.Scans c.scan := by
  have hend : IsBoundary c.source c.source.utf8ByteSize := String.Pos.Raw.isValid_rawEndPos
  have hscan := h.scan_of_isBlankText hr
  rw [hscan]
  refine ⟨Checked.scan_eq_ok_iff.mpr ⟨hscan.symm, ?_⟩, rfl,
    ⟨Nat.le_refl _, Nat.le_refl _, hend, hend⟩, h.isBoundary.le, fun _ => rfl,
    Token.measured_eof _⟩
  intro lo b hb
  -- behind the blanks there is no byte, so that nothing is cut
  have hlo : lo = c.source.utf8ByteSize := h.runEnd_of_isBlankText hr
  rw [hlo, byte?_eq_none_iff.mpr (Nat.le_refl _)] at hb
  cases hb

theorem At.scans_of_isLexeme {w x t : String} {k : Kind} (h : c.At p (w ++ (x ++ t)))
    (hw : IsBlankText w) (hx : IsLexeme k x) (ht : ¬Continues x t) : c.Scans c.scan := by
  have hscan := h.scan_of_isLexeme hw hx ht
  obtain ⟨hlo, b, hb, hhi, -⟩ := h.exists_byte? hw hx ht
  have hstart : IsBoundary c.source (p.utf8ByteSize + w.utf8ByteSize) :=
    isBoundary_iff.mpr ⟨p ++ w, x ++ t, by rw [h.source_eq, String.append_assoc],
      by rw [String.utf8ByteSize_append]⟩
  have hpos : IsBoundary c.source (p.utf8ByteSize + w.utf8ByteSize + x.utf8ByteSize) :=
    (h.behind 0).isBoundary
  rw [hscan]
  refine ⟨Checked.scan_eq_ok_iff.mpr ⟨hscan.symm, ?_⟩, rfl,
    ⟨Nat.le_add_right _ _, hpos.le, hstart, hpos⟩, ?_, ?_, Span.length_eq_ok.mpr rfl⟩
  · rw [hlo]
    intro lo b' hb'
    obtain rfl : b = b' := Option.some.inj (hb.symm.trans hb')
    refine ⟨Checked.lexemeEnd_of_byte? hstart hb _, ?_, hstart, ?_⟩
    · rw [hhi]
      exact Nat.le_add_right _ _
    · rwa [hhi]
  · rw [h.pos_eq, Nat.add_assoc]
    exact Nat.le_add_right _ _
  · intro heof
    exact absurd (eq_of_beq heof) hx.kind_ne_eof

theorem At.scans (h : c.At p r) : c.Scans c.scan := by
  rcases isBlankText_or_exists_lexeme r with hr | ⟨w, k, x, t, rfl, hw, hx, ht⟩
  · exact h.scans_of_isBlankText hr
  · exact h.scans_of_isLexeme hw hx ht

theorem Placed.scans (h : c.Placed) : c.Scans c.scan := by
  obtain ⟨p, r, hat⟩ := h.exists_at
  exact hat.scans

end Cursor

/-! ## Runs where no check fails -/

/-- The tokens of an answer, end tokens included. -/
def Answer.given : Answer → List Token
  | token t => [t]
  | token? t => t.toList
  | tokens ts => ts
  | number _ => []
  | text _ => []

namespace Lexer

variable {l : Lexer}

theorem placed_ofString (s : String) (level : Level) : (ofString s level).Placed where
  start_le := Nat.le_refl _
  pos_le := Nat.zero_le _
  start_isBoundary := String.Pos.Raw.isValid_zero
  pos_isBoundary := String.Pos.Raw.isValid_zero
  pos_eq_of_done := by
    intro h
    cases h

/-- Under check, `l` gives what it gives without checks, each token with its length, and the lexer
behind that is placed well on the same source. -/
structure Safe {α : Type} (given : α → List Token) (l : Lexer)
    (checked : Except Fault (α × Lexer)) (r : α × Lexer) : Prop where
  checked_eq : checked = .ok r
  source_eq : r.2.source = l.source
  placed : r.2.Placed
  measured : ∀ t ∈ given r.1, t.Measured

/-- An answer without tokens that leaves the lexer as it is. -/
theorem Placed.safe (h : l.Placed) {α : Type} {given : α → List Token} {a : α}
    (ha : given a = []) : l.Safe given (.ok (a, l)) (a, l) where
  checked_eq := rfl
  source_eq := rfl
  placed := h
  measured := by
    intro t ht
    rw [ha] at ht
    cases ht

theorem Safe.map {α β : Type} {given : α → List Token} {given' : β → List Token}
    {x : Except Fault (α × Lexer)} {r : α × Lexer} (h : l.Safe given x r) (f : α → β)
    (hf : ∀ a, given' (f a) = given a) :
    l.Safe given' (do let r ← x; .ok (r.map f id)) (r.map f id) where
  checked_eq := Checked.bind_eq_ok_iff.mpr ⟨r, h.checked_eq, rfl⟩
  source_eq := h.source_eq
  placed := h.placed
  measured := by
    intro t ht
    rw [Prod.map_fst, hf] at ht
    exact h.measured t ht

theorem Placed.pull (h : l.Placed) : l.Safe ([·]) (Checked.pull l) l.scan := by
  have hs := h.toPlaced.scans
  refine ⟨Checked.bind_eq_ok_iff.mpr ⟨_, hs.checked, rfl⟩, hs.source_eq, ⟨hs.placed, ?_⟩, ?_⟩
  · intro hd
    have hle := hs.pos_le
    rw [h.pos_eq_of_done hd, ← hs.source_eq] at hle
    exact Nat.le_antisymm hs.placed.pos_le hle
  · intro t ht
    rw [List.mem_singleton.mp ht]
    exact hs.measured

theorem Placed.next (h : l.Placed) : l.Safe Option.toList (Checked.next l) l.next := by
  simp only [Checked.next, Lexer.next]
  split
  · exact h.safe rfl
  · obtain ⟨hpull, hsource, hplaced, hmeasured⟩ := h.pull
    refine ⟨Checked.bind_eq_ok_iff.mpr ⟨_, hpull, rfl⟩, hsource,
      ⟨hplaced.toPlaced, h.toPlaced.scans.pos_eq_of_isEof⟩, hmeasured⟩

theorem Placed.drain (h : l.Placed) (pulled : Array Token)
    (hp : ∀ t ∈ pulled.toList, t.Measured) :
    l.Safe Array.toList (Checked.drain l pulled) (l.drain pulled) := by
  fun_induction Lexer.drain l pulled with
  | case1 l pulled heof =>
      obtain ⟨hpull, hsource, hplaced, hm⟩ := h.pull
      refine ⟨?_, hsource, hplaced, Token.measured_push hp hm⟩
      rw [Checked.drain_of_ok hpull, if_pos heof]
  | case2 l pulled heof _ ih =>
      obtain ⟨hpull, hsource, hplaced, hm⟩ := h.pull
      obtain ⟨hdrain, hsource', hplaced', hm'⟩ := ih hplaced (Token.measured_push hp hm)
      refine ⟨?_, hsource'.trans hsource, hplaced', hm'⟩
      rw [Checked.drain_of_ok hpull, if_neg heof, hdrain]

theorem Placed.scanAll (h : l.Placed) : l.Safe id (Checked.scanAll l) l.scanAll := by
  obtain ⟨hdrain, hsource, hplaced, hm⟩ := h.drain #[] (by simp)
  exact ⟨Checked.bind_eq_ok_iff.mpr ⟨_, hdrain, rfl⟩, hsource,
    ⟨hplaced.toPlaced, hplaced.pos_eq_of_done⟩, hm⟩

theorem Placed.run (h : l.Placed) (call : Call) :
    l.Safe Answer.given (Checked.run l call) (call.run l) := by
  cases call with
  | scan => exact h.pull.map Answer.token fun _ => rfl
  | next => exact h.next.map Answer.token? fun _ => rfl
  | scanAll => exact h.scanAll.map Answer.tokens fun _ => rfl
  | position => exact h.safe rfl
  | source => exact h.safe rfl

theorem Placed.runAll (h : l.Placed) (calls : List Call) :
    l.Safe (·.flatMap Answer.given) (Checked.runAll l calls) (Call.runAll Call.run l calls) := by
  induction calls generalizing l with
  | nil => exact h.safe rfl
  | cons call calls ih =>
      obtain ⟨hrun, hsource, hplaced, hm⟩ := h.run call
      obtain ⟨hrest, hsource', hplaced', hm'⟩ := ih hplaced
      refine ⟨?_, hsource'.trans hsource, hplaced', ?_⟩
      · rw [Checked.runAll, hrun, Checked.ok_bind, hrest]
        rfl
      · simp only [Call.runAll, List.flatMap_cons]
        exact List.forall_mem_append.mpr ⟨hm, hm'⟩

end Lexer

/-- Whatever calls are made on a new lexer, it stays placed well on its source, no check fails in
these calls or in any call after them, and each token that is given has a span as long as its
text. -/
theorem calls_pass_checks (s : String) (level : Level) (calls : List Call) :
    let l := Lexer.ofString s level
    let r := Call.runAll Call.run l calls
    (r.2.source = s ∧ r.2.Placed) ∧
      Checked.runAll l calls = .ok r ∧
      (∀ call, Checked.run r.2 call = .ok (call.run r.2)) ∧
      ∀ t ∈ r.1.flatMap Answer.given, t.span.length = .ok t.text.utf8ByteSize := by
  obtain ⟨hchecked, hsource, hplaced, hm⟩ := (Lexer.placed_ofString s level).runAll calls
  exact ⟨⟨hsource, hplaced⟩, hchecked, fun call => (hplaced.run call).checked_eq, hm⟩

end TokenStream
