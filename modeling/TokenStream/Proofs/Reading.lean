import TokenStream.Lexer.Basic
import TokenStream.Proofs.Scan

/-!
# Readings

A reading is a derivation that a text, lying at an offset, consists of tokens: blanks, a lexeme
that the text behind it does not continue, and so on, up to blanks alone. Each text has a reading,
and what a lexer gives for a source is the reading of it, followed by the end token.
-/

namespace TokenStream

/-- The text at an offset reads as the tokens. Each lexeme is checked against the text behind it,
so that no reading cuts one short. -/
inductive Reads : Nat → String → List Token → Prop
  | stop {o : Nat} {w : String} : IsBlankText w → Reads o w []
  | step {o : Nat} {w x t : String} {k : Kind} {ts : List Token} :
      IsBlankText w → IsLexeme k x → ¬Continues x t →
      Reads (o + w.utf8ByteSize + x.utf8ByteSize) t ts →
      Reads o (w ++ (x ++ t))
        (⟨k, x, ⟨o + w.utf8ByteSize, o + w.utf8ByteSize + x.utf8ByteSize⟩⟩ :: ts)

theorem Reads.lexeme {o : Nat} {x t : String} {k : Kind} {ts : List Token} (hx : IsLexeme k x)
    (ht : ¬Continues x t) (hts : Reads (o + x.utf8ByteSize) t ts) :
    Reads o (x ++ t) (⟨k, x, ⟨o, o + x.utf8ByteSize⟩⟩ :: ts) := by
  have h := Reads.step (o := o) isBlankText_empty hx ht hts
  rwa [String.empty_append] at h

theorem exists_reads (o : Nat) (r : String) : ∃ ts, Reads o r ts := by
  rcases isBlankText_or_exists_lexeme r with hr | ⟨w, k, x, t, rfl, hw, hx, ht⟩
  · exact ⟨[], .stop hr⟩
  · have := hx.utf8ByteSize_pos
    obtain ⟨ts, hts⟩ := exists_reads (o + w.utf8ByteSize + x.utf8ByteSize) t
    exact ⟨_, .step hw hx ht hts⟩
termination_by r.utf8ByteSize
decreasing_by
  subst_vars
  simp only [String.utf8ByteSize_append]
  omega

/-- A reading of a text that begins with blanks and a lexeme begins with that lexeme. -/
theorem reads_append_iff {o : Nat} {w x t : String} {k : Kind} {ts : List Token}
    (hw : IsBlankText w) (hx : IsLexeme k x) :
    Reads o (w ++ (x ++ t))
        (⟨k, x, ⟨o + w.utf8ByteSize, o + w.utf8ByteSize + x.utf8ByteSize⟩⟩ :: ts) ↔
      ¬Continues x t ∧ Reads (o + w.utf8ByteSize + x.utf8ByteSize) t ts := by
  constructor
  · intro h
    generalize hr : w ++ (x ++ t) = r at h
    generalize htok : (⟨k, x, ⟨o + w.utf8ByteSize, o + w.utf8ByteSize + x.utf8ByteSize⟩⟩ : Token) =
      tok at h
    cases h with
    | @step _ w' x' t' k' _ _ _ hmax hts =>
        simp only [Token.mk.injEq, Span.mk.injEq, Nat.add_left_cancel_iff] at htok
        obtain ⟨-, rfl, hsize, -⟩ := htok
        obtain ⟨rfl, ht⟩ := Source.append_inj hr hsize
        obtain ⟨-, rfl⟩ := Source.append_inj ht rfl
        exact ⟨hmax, hts⟩
  · intro h
    obtain ⟨hmax, hts⟩ := h
    exact .step hw hx hmax hts

/-! ## Readings and cursors -/

namespace Cursor

/-- The tokens from a cursor on, up to the first end token. -/
def rest (c : Cursor) : List Token :=
  if h : c.scan.1.isEof then [c.scan.1]
  else
    have := remaining_scan_lt (Bool.eq_false_iff.mpr h)
    c.scan.1 :: c.scan.2.rest
termination_by c.remaining

variable {c : Cursor} {p r : String}

theorem rest_of_isEof (h : c.scan.1.isEof = true) : c.rest = [c.scan.1] := by
  rw [rest, dif_pos h]

theorem rest_of_not_isEof (h : ¬c.scan.1.isEof = true) : c.rest = c.scan.1 :: c.scan.2.rest := by
  rw [rest, dif_neg h]

theorem rest_of_isBlankText (h : c.At p r) (hr : IsBlankText r) :
    c.rest = [.eof c.source.utf8ByteSize] := by
  have hscan := h.scan_of_isBlankText hr
  rw [rest_of_isEof (by rw [hscan]; rfl), hscan]

theorem rest_of_isLexeme {w x t : String} {k : Kind} (h : c.At p (w ++ (x ++ t)))
    (hw : IsBlankText w) (hx : IsLexeme k x) (ht : ¬Continues x t) :
    c.rest = c.scan.1 :: c.scan.2.rest := by
  have hk : ¬c.scan.1.isEof = true := by
    rw [h.scan_of_isLexeme hw hx ht]
    simpa [Token.isEof] using hx.kind_ne_eof
  exact rest_of_not_isEof hk

end Cursor

theorem Reads.rest_eq {o : Nat} {r : String} {ts : List Token} (h : Reads o r ts) {c : Cursor}
    {p : String} (hc : c.At p r) (ho : o = p.utf8ByteSize) :
    c.rest = ts ++ [.eof c.source.utf8ByteSize] := by
  induction h generalizing c p with
  | stop hw => exact Cursor.rest_of_isBlankText hc hw
  | @step o w x t k ts hw hx ht _ ih =>
      subst ho
      rw [Cursor.rest_of_isLexeme hc hw hx ht, hc.scan_of_isLexeme hw hx ht, List.cons_append,
        ih (hc.behind _) (by simp [String.utf8ByteSize_append])]

/-! ## Readings and lexers -/

namespace Lexer

theorem toList_fst_drain (l : Lexer) (pulled : Array Token) :
    (l.drain pulled).1.toList = pulled.toList ++ l.toCursor.rest := by
  fun_induction drain l pulled with
  | case1 l pulled h =>
      rw [Cursor.rest_of_isEof h]
      simp
  | case2 l pulled h _ ih =>
      rw [ih, Cursor.rest_of_not_isEof h]
      simp

theorem fst_scanAll (l : Lexer) : l.scanAll.1 = l.toCursor.rest := by
  simp [scanAll, toList_fst_drain]

theorem ofString_at (s : String) (level : Level) : (ofString s level).toCursor.At "" s where
  source_eq := String.empty_append.symm
  pos_eq := rfl

/-- All that a new lexer gives is the reading of its source, and then the end token. -/
theorem scanAll_eq_iff {s : String} {level : Level} {ts : List Token} :
    (ofString s level).scanAll.1 = ts ++ [.eof s.utf8ByteSize] ↔ Reads 0 s ts := by
  have of_reads {us : List Token} (h : Reads 0 s us) :
      (ofString s level).scanAll.1 = us ++ [.eof s.utf8ByteSize] := by
    rw [fst_scanAll, h.rest_eq (ofString_at s level) rfl]
    rfl
  constructor
  · intro h
    obtain ⟨us, hus⟩ := exists_reads 0 s
    rw [of_reads hus] at h
    rwa [← (List.append_inj' h rfl).1]
  · exact of_reads

end Lexer

/-! ## A token of a reading -/

variable {o : Nat} {r : String} {ts : List Token}

/-- Each token of a reading is a maximal lexeme that lies where its span says. -/
theorem Reads.exists_append {t : Token} (h : Reads o r ts) (ht : t ∈ ts) :
    ∃ u v, r = u ++ (t.text ++ v) ∧
      t.span = ⟨o + u.utf8ByteSize, o + u.utf8ByteSize + t.text.utf8ByteSize⟩ ∧
      IsLexeme t.kind t.text ∧ ¬Continues t.text v := by
  induction h with
  | stop _ => cases ht
  | @step o w x v k ts hw hx hv _ ih =>
      rcases List.mem_cons.mp ht with rfl | ht
      · exact ⟨w, v, rfl, rfl, hx, hv⟩
      · obtain ⟨u, v', hr, hspan, hlex, hmax⟩ := ih ht
        refine ⟨w ++ (x ++ u), v', ?_, ?_, hlex, hmax⟩
        · rw [hr, String.append_assoc, String.append_assoc]
        · rw [hspan]
          simp [String.utf8ByteSize_append, Nat.add_assoc]

theorem Reads.le_hi {t : Token} (h : Reads o r ts) (ht : t ∈ ts) : o ≤ t.span.hi := by
  obtain ⟨u, v, -, hspan, -, -⟩ := h.exists_append ht
  rw [hspan, Nat.add_assoc]
  exact Nat.le_add_right _ _

theorem Reads.hi_le {t : Token} (h : Reads o r ts) (ht : t ∈ ts) :
    t.span.hi ≤ o + r.utf8ByteSize := by
  obtain ⟨u, v, rfl, hspan, -, -⟩ := h.exists_append ht
  simp only [hspan, String.utf8ByteSize_append]
  omega

theorem Reads.isEof_eq_false {t : Token} (h : Reads o r ts) (ht : t ∈ ts) :
    t.isEof = false := by
  obtain ⟨_, _, -, -, hlex, -⟩ := h.exists_append ht
  simpa [Token.isEof] using hlex.kind_ne_eof

end TokenStream
