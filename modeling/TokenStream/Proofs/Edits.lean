import TokenStream.Proofs.Concatenation
import TokenStream.Proofs.Tiling

/-!
# Edits

When a part of a text is replaced by another, the tokens that end before it stay as they are, and
those behind it are moved, provided that what follows the part does not begin with what a word or
number could take in. A token that touches the part may change: a word there can grow.
-/

namespace TokenStream

open Source

/-- The token moved by a number of bytes, backwards if it is negative. -/
def Token.moveBy (d : Int) (t : Token) : Token :=
  { t with span := ⟨(t.span.lo + d).toNat, (t.span.hi + d).toNat⟩ }

/-- The lexemes among the tokens that end before an offset. -/
def lexemesBefore (n : Nat) (ts : List Token) : List Token :=
  ts.filter fun t => !t.isEof && decide (t.span.hi < n)

/-- The tokens that begin at an offset or behind it. -/
def tokensBehind (n : Nat) (ts : List Token) : List Token :=
  ts.filter fun t => decide (n ≤ t.span.lo)

/-- The offset falls inside the token. -/
def Token.Straddles (t : Token) (n : Nat) : Prop := t.span.lo < n ∧ n < t.span.hi

/-! ## In front of an edit -/

/-- A lexeme that is the beginning of a longer one is continued by the rest of that. -/
theorem IsLexeme.continues {k k' : Kind} {x v : String} (hx : IsLexeme k x)
    (h : IsLexeme k' (x ++ v)) (hv : v ≠ "") : Continues x v := by
  obtain ⟨c, cs, hc⟩ := hx.exists_cons
  cases hd : v.toList with
  | nil => exact absurd (String.toList_eq_nil_iff.mp hd) hv
  | cons d ds =>
      have hlist : (x ++ v).toList = c :: (cs ++ d :: ds) := by
        rw [String.toList_append, hc, hd, List.cons_append]
      refine ⟨d, by rw [hd]; rfl, ?_⟩
      generalize x ++ v = z at h hlist
      cases h with
      | word hw =>
          left
          obtain ⟨c', cs', hz, hhead, hall⟩ := hw
          rw [hlist, List.cons.injEq] at hz
          obtain ⟨rfl, rfl⟩ := hz
          exact ⟨⟨c, cs, hc, hhead, fun e he => hall e (List.mem_append_left _ he)⟩,
            hall d (by simp)⟩
      | number hn =>
          right
          obtain ⟨-, hall⟩ := hn
          rw [hlist] at hall
          refine ⟨⟨?_, fun e he => hall e ?_⟩, hall d (by simp)⟩
          · rintro rfl
            cases hc
          · rw [hc] at he
            rcases List.mem_cons.mp he with rfl | he
            · exact List.mem_cons_self
            · exact List.mem_cons_of_mem _ (List.mem_append_left _ he)
      | mark _ => simp at hlist
      | other _ _ _ => simp at hlist

theorem IsLexeme.eq_empty_of_append {k : Kind} {w u : String} (h : IsLexeme k (w ++ u))
    (hw : IsBlankText w) : w = "" := by
  cases hc : w.toList with
  | nil => exact String.toList_eq_nil_iff.mp hc
  | cons c cs =>
      have hnot := h.isWhitespace_eq_false c (by simp [hc])
      rw [hw c (by simp [hc])] at hnot
      cases hnot

/-- A maximal lexeme behind blanks reaches as far as any lexeme that the text begins with. -/
theorem IsLexeme.utf8ByteSize_le {k k' : Kind} {x z w y t : String} (hx : IsLexeme k x)
    (hw : IsBlankText w) (hy : IsLexeme k' y) (hmax : ¬Continues y t)
    (h : x ++ z = w ++ (y ++ t)) : x.utf8ByteSize ≤ w.utf8ByteSize + y.utf8ByteSize := by
  rw [← String.append_assoc] at h
  rcases exists_of_append_eq_append h with ⟨v, hwy, -⟩ | ⟨v, rfl, rfl⟩
  · have hsize := congrArg String.utf8ByteSize hwy
    simp only [String.utf8ByteSize_append] at hsize
    omega
  · obtain rfl : w = "" := by
      rw [String.append_assoc] at hx
      exact hx.eq_empty_of_append hw
    rw [String.empty_append] at hx ⊢
    by_cases hv : v = ""
    · simp [hv]
    · exact absurd ((continues_append_iff hv z).mpr (hy.continues hx hv)) hmax

/-- No token of a text that begins with a lexeme ends before the end of that. -/
theorem Reads.le_hi_of_isLexeme {o : Nat} {k : Kind} {x z : String} {us : List Token}
    (h : Reads o (x ++ z) us) (hx : IsLexeme k x) : ∀ u ∈ us, o + x.utf8ByteSize ≤ u.span.hi := by
  generalize hr : x ++ z = r at h
  intro u hu
  cases h with
  | stop _ => cases hu
  | @step _ w y t _ ts hw hy hmax hts =>
      have hsize := hx.utf8ByteSize_le hw hy hmax hr
      have hfirst : o + x.utf8ByteSize ≤ o + w.utf8ByteSize + y.utf8ByteSize := by omega
      rcases List.mem_cons.mp hu with rfl | hu
      · exact hfirst
      · exact Nat.le_trans hfirst (hts.le_hi hu)

theorem lexemesBefore_eq_nil {n : Nat} {ts : List Token} (h : ∀ t ∈ ts, n ≤ t.span.hi) :
    lexemesBefore n ts = [] := by
  apply List.filter_eq_nil_iff.mpr
  intro t ht hbefore
  rw [Bool.and_eq_true, decide_eq_true_eq] at hbefore
  exact absurd hbefore.2 (Nat.not_lt.mpr (h t ht))

theorem lexemesBefore_append (n : Nat) (ts us : List Token) :
    lexemesBefore n (ts ++ us) = lexemesBefore n ts ++ lexemesBefore n us := List.filter_append ..

theorem lexemesBefore_eof (n m : Nat) : lexemesBefore n [.eof m] = [] := rfl

/-- What follows a text does not change the lexemes that end before its end. -/
theorem Reads.exists_reads_append {o : Nat} {x : String} {ts : List Token} (h : Reads o x ts)
    (z : String) : ∃ us, Reads o (x ++ z) us ∧
      lexemesBefore (o + x.utf8ByteSize) us = lexemesBefore (o + x.utf8ByteSize) ts := by
  induction h with
  | @stop o w hw =>
      obtain ⟨us, hus⟩ := exists_reads (o + w.utf8ByteSize) z
      exact ⟨us, .blank_append hw hus, lexemesBefore_eq_nil fun u hu => hus.le_hi hu⟩
  | @step o w x t k ts hw hx hmax hts ih =>
      rw [String.append_assoc, String.append_assoc, String.utf8ByteSize_append,
        String.utf8ByteSize_append, ← Nat.add_assoc, ← Nat.add_assoc]
      by_cases ht : t = ""
      · -- the lexeme touches the end and may grow, but whatever it becomes ends no earlier
        subst ht
        obtain ⟨us, hus⟩ := exists_reads (o + w.utf8ByteSize) (x ++ ("" ++ z))
        refine ⟨us, .blank_append hw hus, ?_⟩
        rw [hts.eq_nil, String.utf8ByteSize_empty, Nat.add_zero,
          lexemesBefore_eq_nil (hus.le_hi_of_isLexeme hx), lexemesBefore_eq_nil (by simp)]
      · obtain ⟨us, hus, hbefore⟩ := ih
        refine ⟨_, .step hw hx (mt (continues_append_iff ht z).mp hmax) hus, ?_⟩
        rw [← List.singleton_append, lexemesBefore_append, hbefore, ← lexemesBefore_append]
        rfl

theorem lexemesBefore_scanAll_append (x z : String) (level : Level) :
    lexemesBefore x.utf8ByteSize (Lexer.ofString (x ++ z) level).scanAll.1 =
      lexemesBefore x.utf8ByteSize (Lexer.ofString x level).scanAll.1 := by
  obtain ⟨ts, hts⟩ := exists_reads 0 x
  obtain ⟨us, hus, hbefore⟩ := hts.exists_reads_append z
  rw [Nat.zero_add] at hbefore
  rw [Lexer.scanAll_eq_iff.mpr hts, Lexer.scanAll_eq_iff.mpr hus, lexemesBefore_append,
    lexemesBefore_append, lexemesBefore_eof, lexemesBefore_eof, hbefore]

/-! ## Behind an edit -/

/-- The text does not begin with what a word or a number could take in. -/
def StandsApart (y : String) : Prop := ∀ b, byte? y 0 = some b → isWordByte b = false

theorem StandsApart.not_merges {y : String} (hy : StandsApart y) (ts : List Token) (cut : Nat) :
    ¬Merges ts cut y := by
  intro h
  obtain ⟨t, -, -, ⟨-, b, hb, hword⟩ | ⟨-, b, hb, hdigit⟩⟩ := h
  · rw [hy b hb] at hword
    cases hword
  · have hword := hy b hb
    rw [isWordByte, hdigit, Bool.or_true] at hword
    cases hword

theorem StandsApart.scanAll_append {y : String} (hy : StandsApart y) {a : String}
    {ts : List Token} (ha : Reads 0 a ts) (level : Level) :
    (Lexer.ofString (a ++ y) level).scanAll.1 =
      ts ++ (Lexer.ofString y level).scanAll.1.map (Token.shift a.utf8ByteSize) := by
  obtain ⟨us, hus⟩ := exists_reads 0 y
  have hread := (reads_append_iff_not_merges ha (hus.shift a.utf8ByteSize)).mpr
    (hy.not_merges ts _)
  rw [Lexer.scanAll_eq_iff.mpr hread, Lexer.scanAll_eq_iff.mpr hus, List.map_append,
    List.append_assoc, String.utf8ByteSize_append, Nat.add_comm]
  rfl

theorem StandsApart.tokensBehind_scanAll_append {y : String} (hy : StandsApart y) (a : String)
    (level : Level) :
    tokensBehind a.utf8ByteSize (Lexer.ofString (a ++ y) level).scanAll.1 =
      (Lexer.ofString y level).scanAll.1.map (Token.shift a.utf8ByteSize) := by
  obtain ⟨ts, hts⟩ := exists_reads 0 a
  rw [hy.scanAll_append hts, tokensBehind, List.filter_append, List.filter_eq_nil_iff.mpr,
    List.filter_eq_self.mpr, List.nil_append]
  · intro t ht
    obtain ⟨u, -, rfl⟩ := List.mem_map.mp ht
    exact decide_eq_true (Nat.le_add_left _ _)
  · intro t ht hbehind
    have hlt := hts.tiles.lo_lt_hi t ht
    have hle := hts.hi_le ht
    have hge := of_decide_eq_true hbehind
    omega

theorem StandsApart.not_straddles {y : String} (hy : StandsApart y) (a : String) (level : Level) :
    ∀ t ∈ (Lexer.ofString (a ++ y) level).scanAll.1, ¬t.Straddles a.utf8ByteSize := by
  obtain ⟨ts, hts⟩ := exists_reads 0 a
  rw [hy.scanAll_append hts]
  intro t ht h
  obtain ⟨hlo, hhi⟩ := h
  rcases List.mem_append.mp ht with ht | ht
  · have hle := hts.hi_le ht
    omega
  · obtain ⟨u, -, rfl⟩ := List.mem_map.mp ht
    exact absurd hlo (Nat.not_lt.mpr (Nat.le_add_left _ _))

theorem Token.moveBy_shift (t : Token) (k m n : Nat) :
    (t.shift (k + m)).moveBy ((n : Int) - m) = t.shift (k + n) := by
  simp only [moveBy, shift, Span.shift, Token.mk.injEq, Span.mk.injEq, true_and]
  omega

/-- Putting another text in the place of a part keeps the lexemes that end before the part. If what
follows the part stands apart, then no token lies across its beginning, and the tokens from there on
are only moved, by as much as the text has grown. -/
theorem scanAll_edit (x m m' y : String) (level : Level) :
    let A := (Lexer.ofString (x ++ m ++ y) level).scanAll.1
    let B := (Lexer.ofString (x ++ m' ++ y) level).scanAll.1
    lexemesBefore x.utf8ByteSize A = lexemesBefore x.utf8ByteSize B ∧
      (StandsApart y →
        (∀ t ∈ A, ¬t.Straddles (x ++ m).utf8ByteSize) ∧
          (∀ t ∈ B, ¬t.Straddles (x ++ m').utf8ByteSize) ∧
          (tokensBehind (x ++ m).utf8ByteSize A).map
              (Token.moveBy ((m'.utf8ByteSize : Int) - m.utf8ByteSize)) =
            tokensBehind (x ++ m').utf8ByteSize B) := by
  intro A B
  refine ⟨?_, fun hy => ⟨hy.not_straddles _ _, hy.not_straddles _ _, ?_⟩⟩
  · simp only [A, B]
    rw [String.append_assoc, String.append_assoc, lexemesBefore_scanAll_append,
      lexemesBefore_scanAll_append]
  · simp only [A, B]
    rw [hy.tokensBehind_scanAll_append, hy.tokensBehind_scanAll_append, List.map_map]
    apply List.map_congr_left
    intro t _
    rw [Function.comp_apply, String.utf8ByteSize_append, String.utf8ByteSize_append,
      Token.moveBy_shift]

/-- The word that the removed part lengthens is another one, the tokens around it are the same. -/
theorem scanAll_edit_shortened_word :
    let A := (Lexer.ofString ("x ab" ++ "c1" ++ " d")).scanAll.1
    let B := (Lexer.ofString ("x ab" ++ "" ++ " d")).scanAll.1
    StandsApart " d" ∧ lexemesBefore 4 A = lexemesBefore 4 B ∧
      (tokensBehind 6 A).map (Token.moveBy (-2)) = tokensBehind 4 B := by
  have hy : StandsApart " d" := by
    intro b hb
    obtain rfl : 0x20 = b := Option.some.inj hb
    rfl
  obtain ⟨hbefore, hbehind⟩ := scanAll_edit "x ab" "c1" "" " d" .off
  exact ⟨hy, hbefore, (hbehind hy).2.2⟩

end TokenStream
