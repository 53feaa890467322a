import TokenStream.Proofs.Reading

/-!
# Tokens tile their source

The tokens of a source lie in order in it, each on the bytes of its text; the bytes between them
are blanks and those under them are not; each text is a lexeme of its kind, and no word or number
stops where it could go on. Texts and gaps together give the source back.
-/

namespace TokenStream

open Source

/-- The bytes of a source from an offset on, each span filled in with the text of its token. -/
def weave (s : String) (lo : Nat) : List Token → List UInt8
  | [] => (bytes s).drop lo
  | t :: ts => (bytes s).extract lo t.span.lo ++ (bytes t.text ++ weave s t.span.hi ts)

/-- The tokens, none of them the end token, lie in the source as maximal lexemes with only blanks
around them. -/
structure Tiles (s : String) (ts : List Token) : Prop where
  isEof : ∀ t ∈ ts, t.isEof = false
  ordered : ts.Pairwise fun t u => t.span.hi ≤ u.span.lo
  lo_lt_hi : ∀ t ∈ ts, t.span.lo < t.span.hi
  slice : ∀ t ∈ ts, slice? s t.span.lo t.span.hi = some t.text
  bytes_text : ∀ t ∈ ts, bytes t.text = (bytes s).extract t.span.lo t.span.hi
  gap_blank : ∀ i b, byte? s i = some b → (∀ t ∈ ts, i < t.span.lo ∨ t.span.hi ≤ i) →
    isBlank b = true
  text_not_blank : ∀ t ∈ ts, ∀ b ∈ bytes t.text, isBlank b = false
  weave : weave s 0 ts = bytes s
  isLexeme : ∀ t ∈ ts, IsLexeme t.kind t.text
  word_maximal : ∀ t ∈ ts, IsWord t.text → ∀ b, byte? s t.span.hi = some b →
    isWordByte b = false
  number_maximal : ∀ t ∈ ts, t.kind = .number → ∀ b, byte? s t.span.hi = some b →
    isDigit b = false

/-! ## Order -/

section

variable {o : Nat} {r : String} {ts : List Token}

theorem Reads.le_lo (h : Reads o r ts) : ∀ t ∈ ts, o ≤ t.span.lo := by
  intro t ht
  obtain ⟨u, v, -, hspan, -, -⟩ := h.exists_append ht
  rw [hspan]
  exact Nat.le_add_right _ _

theorem Reads.ordered (h : Reads o r ts) :
    ts.Pairwise fun t u => t.span.hi ≤ u.span.lo := by
  induction h with
  | stop _ => exact List.Pairwise.nil
  | step _ _ _ hts ih => exact List.Pairwise.cons hts.le_lo ih

/-! ## Gaps -/

theorem IsBlankText.isBlank_of_byte? {w : String} (hw : IsBlankText w) {i : Nat} {b : UInt8}
    (hb : byte? w i = some b) : isBlank b = true := by
  rw [byte?_eq_getElem?] at hb
  exact byteClass_isBlank.forall_bytes_iff.mpr hw b (List.mem_of_getElem? hb)

theorem Reads.isBlank_of_gap (h : Reads o r ts) {i : Nat} {b : UInt8} (hb : byte? r i = some b)
    (hgap : ∀ t ∈ ts, o + i < t.span.lo ∨ t.span.hi ≤ o + i) : isBlank b = true := by
  induction h generalizing i with
  | stop hw => exact hw.isBlank_of_byte? hb
  | @step o w x t k ts hw hx _ hts ih =>
      rcases hgap _ List.mem_cons_self with hlt | hge
      · have hi : i < w.utf8ByteSize := Nat.lt_of_add_lt_add_left hlt
        rw [byte?_append_left hi] at hb
        exact hw.isBlank_of_byte? hb
      · obtain ⟨j, rfl⟩ : ∃ j, i = (w ++ x).utf8ByteSize + j := by
          refine ⟨i - (w ++ x).utf8ByteSize, ?_⟩
          rw [String.utf8ByteSize_append]
          simp only at hge
          omega
        rw [← String.append_assoc, byte?_append_right] at hb
        apply ih hb
        intro u hu
        rw [Nat.add_assoc o, ← String.utf8ByteSize_append, Nat.add_assoc]
        exact hgap u (List.mem_cons_of_mem _ hu)

/-! ## Texts -/

theorem extract_bytes (s t u : String) :
    (bytes (s ++ (t ++ u))).extract s.utf8ByteSize (s.utf8ByteSize + t.utf8ByteSize) =
      bytes t := by
  rw [List.extract_eq_take_drop, bytes_append, bytes_append, ← length_bytes, ← length_bytes,
    List.drop_left, Nat.add_sub_cancel_left, List.take_left]

theorem Reads.weave_eq {s p : String} (h : Reads o r ts) (hs : s = p ++ r)
    (ho : o = p.utf8ByteSize) : weave s o ts = bytes r := by
  induction h generalizing p with
  | stop _ =>
      subst hs ho
      rw [weave, bytes_append, ← length_bytes, List.drop_left]
  | @step o w x t k ts _ _ _ _ ih =>
      subst ho
      have hsw : s = p ++ (w ++ (x ++ t)) := hs
      rw [weave, ih (p := p ++ (w ++ x)) _ _, hsw, extract_bytes, bytes_append, bytes_append]
      · rw [hs, String.append_assoc, String.append_assoc]
      · simp [String.utf8ByteSize_append, Nat.add_assoc]

end

/-! ## Tiling -/

theorem Reads.tiles {s : String} {ts : List Token} (h : Reads 0 s ts) : Tiles s ts where
  isEof _ ht := h.isEof_eq_false ht
  ordered := h.ordered
  lo_lt_hi t ht := by
    obtain ⟨u, v, -, hspan, hlex, -⟩ := h.exists_append ht
    rw [hspan]
    exact Nat.lt_add_of_pos_right hlex.utf8ByteSize_pos
  slice t ht := by
    obtain ⟨u, v, rfl, hspan, -, -⟩ := h.exists_append ht
    rw [hspan, Nat.zero_add, slice?_append]
  bytes_text t ht := by
    obtain ⟨u, v, rfl, hspan, -, -⟩ := h.exists_append ht
    rw [hspan, Nat.zero_add, extract_bytes]
  gap_blank i b hb hgap := by
    apply h.isBlank_of_gap hb
    rwa [Nat.zero_add]
  text_not_blank t ht := by
    obtain ⟨u, v, -, -, hlex, -⟩ := h.exists_append ht
    exact byteClass_isBlank.forall_bytes_iff.mpr hlex.isWhitespace_eq_false
  weave := h.weave_eq (p := "") String.empty_append.symm rfl
  isLexeme t ht := by
    obtain ⟨u, v, -, -, hlex, -⟩ := h.exists_append ht
    exact hlex
  word_maximal t ht hw b hb := by
    obtain ⟨u, v, rfl, hspan, -, hmax⟩ := h.exists_append ht
    rw [hspan, Nat.zero_add, ← String.append_assoc, ← String.utf8ByteSize_append,
      byte?_append_end] at hb
    rw [continues_iff_byte?, not_or, not_and] at hmax
    exact Bool.eq_false_iff.mpr fun hword => hmax.1 hw ⟨b, hb, hword⟩
  number_maximal t ht hk b hb := by
    obtain ⟨u, v, rfl, hspan, hlex, hmax⟩ := h.exists_append ht
    rw [hspan, Nat.zero_add, ← String.append_assoc, ← String.utf8ByteSize_append,
      byte?_append_end] at hb
    rw [continues_iff_byte?, not_or, not_and, not_and] at hmax
    exact Bool.eq_false_iff.mpr fun hdigit => hmax.2 (hlex.isNumeral_iff.mpr hk) ⟨b, hb, hdigit⟩

/-- All that a new lexer gives for a source tiles it, but for one end token that comes last. -/
theorem scanAll_tiles (s : String) (level : Level) :
    ∃ ts, (Lexer.ofString s level).scanAll.1 = ts ++ [.eof s.utf8ByteSize] ∧ Tiles s ts := by
  obtain ⟨ts, hts⟩ := exists_reads 0 s
  exact ⟨ts, Lexer.scanAll_eq_iff.mpr hts, hts.tiles⟩

end TokenStream
