import TokenStream.Proofs.Reading

/-!
# Concatenation

The tokens of two texts, one behind the other, are those of the first and then those of the second,
shifted, exactly when no token merges across the cut. Nothing else of the first text matters: a scan
carries no mode from one token to the next.
-/

namespace TokenStream

open Source

/-- The first byte of a text would go on the token: a word takes in word bytes, a number digits. -/
def Token.TakesIn (t : Token) (b : String) : Prop :=
  ((t.kind = .identifier ∨ t.kind.isKeyword = true) ∧
      ∃ x, byte? b 0 = some x ∧ isWordByte x = true) ∨
    (t.kind = .number ∧ ∃ x, byte? b 0 = some x ∧ isDigit x = true)

/-- The last of the tokens ends at the cut and takes in what follows. -/
def Merges (ts : List Token) (cut : Nat) (b : String) : Prop :=
  ∃ t, ts.getLast? = some t ∧ t.span.hi = cut ∧ t.TakesIn b

theorem IsLexeme.takesIn_iff {t : Token} (h : IsLexeme t.kind t.text) (b : String) :
    t.TakesIn b ↔ Continues t.text b := by
  rw [continues_iff_byte?, h.isWord_iff, h.isNumeral_iff]
  rfl

section

variable {t u : Token} {ts : List Token} {cut : Nat} {b : String}

theorem not_merges_nil : ¬Merges [] cut b := by
  intro h
  obtain ⟨t, ht, -⟩ := h
  cases ht

theorem merges_singleton : Merges [t] cut b ↔ t.span.hi = cut ∧ t.TakesIn b := by
  simp [Merges]

theorem merges_cons_cons : Merges (t :: u :: ts) cut b ↔ Merges (u :: ts) cut b := by
  unfold Merges
  rw [List.getLast?_cons_cons]

end

/-! ## The second text -/

theorem Reads.shift {o : Nat} {r : String} {ts : List Token} (h : Reads o r ts) (n : Nat) :
    Reads (o + n) r (ts.map (Token.shift n)) := by
  induction h with
  | stop hw => exact .stop hw
  | @step o w x t k ts hw hx hmax _ ih =>
      rw [Nat.add_right_comm _ x.utf8ByteSize n, Nat.add_right_comm o _ n] at ih
      simp only [List.map_cons, Token.shift, Span.shift]
      rw [Nat.add_right_comm _ x.utf8ByteSize n, Nat.add_right_comm o _ n]
      exact .step hw hx hmax ih

theorem Reads.blank_append {o : Nat} {w r : String} {ts : List Token} (hw : IsBlankText w)
    (h : Reads (o + w.utf8ByteSize) r ts) : Reads o (w ++ r) ts := by
  cases h with
  | stop hv => exact .stop (hw.append hv)
  | @step _ v x t k ts hv hx hmax hts =>
      rw [Nat.add_assoc o, ← String.utf8ByteSize_append] at hts ⊢
      rw [← String.append_assoc]
      exact .step (hw.append hv) hx hmax hts

/-! ## The cut -/

theorem Reads.eq_nil {o : Nat} {ts : List Token} (h : Reads o "" ts) : ts = [] := by
  generalize hr : "" = r at h
  cases h with
  | stop _ => rfl
  | @step _ w x t _ _ _ hx =>
      have hsize := congrArg String.utf8ByteSize hr
      have := hx.utf8ByteSize_pos
      simp only [String.utf8ByteSize_append, String.utf8ByteSize_empty] at hsize
      omega

theorem Reads.merges_cons_iff {o : Nat} {x t b : String} {ts : List Token} {k : Kind} {sp : Span}
    (h : Reads o t ts) (hx : IsLexeme k x) (hmax : ¬Continues x t) (hsp : sp.hi = o) :
    Merges (⟨k, x, sp⟩ :: ts) (o + t.utf8ByteSize) b ↔
      Continues x (t ++ b) ∨ Merges ts (o + t.utf8ByteSize) b := by
  -- with nothing left before the cut the lexeme is the last one, and otherwise it ends before it
  by_cases ht : t = ""
  · subst ht
    rw [h.eq_nil, merges_singleton, String.empty_append, IsLexeme.takesIn_iff hx]
    simp [hsp, not_merges_nil]
  · rw [continues_append_iff ht]
    simp only [hmax, false_or]
    cases ts with
    | nil =>
        have hpos : t.utf8ByteSize ≠ 0 := fun h0 => ht (String.utf8ByteSize_eq_zero_iff.mp h0)
        apply iff_of_false
        · rw [merges_singleton, hsp]
          intro h
          obtain ⟨hcut, -⟩ := h
          omega
        · exact not_merges_nil
    | cons u ts => exact merges_cons_cons

theorem reads_append_iff_not_merges {o : Nat} {a b : String} {ts us : List Token}
    (ha : Reads o a ts) (hb : Reads (o + a.utf8ByteSize) b us) :
    Reads o (a ++ b) (ts ++ us) ↔ ¬Merges ts (o + a.utf8ByteSize) b := by
  induction ha with
  | stop hw => exact iff_of_true (.blank_append hw hb) not_merges_nil
  | @step o w x t k ts hw hx hmax hts ih =>
      have hcut : o + (w ++ (x ++ t)).utf8ByteSize =
          o + w.utf8ByteSize + x.utf8ByteSize + t.utf8ByteSize := by
        simp only [String.utf8ByteSize_append, Nat.add_assoc]
      rw [hcut] at hb ⊢
      rw [String.append_assoc, String.append_assoc, List.cons_append, reads_append_iff hw hx,
        ih hb, hts.merges_cons_iff hx hmax rfl, not_or]

/-- Scanning two texts as one gives the tokens of the first without its end token, and then those of
the second, shifted, exactly when no token merges across the cut. -/
theorem scanAll_append_iff (a b : String) (level : Level) :
    let A := (Lexer.ofString a level).scanAll.1
    let B := (Lexer.ofString b level).scanAll.1
    (Lexer.ofString (a ++ b) level).scanAll.1 =
        A.dropLast ++ B.map (Token.shift a.utf8ByteSize) ↔
      ¬Merges A.dropLast a.utf8ByteSize b := by
  obtain ⟨ts, ha⟩ := exists_reads 0 a
  obtain ⟨us, hb⟩ := exists_reads 0 b
  have heof : Token.shift a.utf8ByteSize (.eof b.utf8ByteSize) = .eof (a ++ b).utf8ByteSize := by
    rw [String.utf8ByteSize_append, Nat.add_comm]
    rfl
  have hiff := reads_append_iff_not_merges ha (hb.shift a.utf8ByteSize)
  intro A B
  simp only [A, B, Lexer.scanAll_eq_iff.mpr ha, Lexer.scanAll_eq_iff.mpr hb, List.dropLast_concat,
    List.map_append, List.map_cons, List.map_nil, heof]
  rw [← List.append_assoc, Lexer.scanAll_eq_iff, hiff, Nat.zero_add]

end TokenStream
