import TokenStream.Proofs.Tiling

/-!
# Interchangeable blanks

Which blank stands where makes no difference to a scan, next to whatever token, and nothing else of
a source is lost in its tokens: two sources have the same tokens exactly when they are the same but
for the choice of blanks. A source with a space in place of each blank stands for all of these.
-/

namespace TokenStream

open Source

/-- The texts have the same bytes, but for blanks that stand at the same places. -/
def SameButBlanks (s s' : String) : Prop :=
  s.utf8ByteSize = s'.utf8ByteSize ∧
    ∀ i b b', byte? s i = some b → byte? s' i = some b' →
      b = b' ∨ isBlank b = true ∧ isBlank b' = true

/-! ## Spaces for blanks -/

def spacedChar (c : Char) : Char := if c.isWhitespace then ' ' else c

def spacedByte (b : UInt8) : UInt8 := if isBlank b then 0x20 else b

/-- The text with a space in place of each blank. -/
def spaced (s : String) : String := s.map spacedChar

theorem toList_spaced (s : String) : (spaced s).toList = s.toList.map spacedChar :=
  String.toList_map

theorem spaced_append (s t : String) : spaced (s ++ t) = spaced s ++ spaced t := by
  simp [← String.toList_inj, toList_spaced]

theorem spacedByte_eq_iff {b b' : UInt8} :
    spacedByte b = spacedByte b' ↔ b = b' ∨ isBlank b = true ∧ isBlank b' = true := by
  have hspace : isBlank 0x20 = true := rfl
  unfold spacedByte
  split
  · next hb =>
    split
    · next hb' => simp [hb, hb']
    · next hb' => grind
  · next hb => grind

theorem utf8EncodeChar_spacedChar (c : Char) :
    String.utf8EncodeChar (spacedChar c) = (String.utf8EncodeChar c).map spacedByte := by
  have hclass := byteClass_isBlank c
  unfold spacedChar
  split
  · next hc =>
    simp only [Char.isWhitespace, Bool.or_eq_true, decide_eq_true_eq] at hc
    rcases hc with ((rfl | rfl) | rfl) | rfl <;> decide
  · next hc =>
    rw [List.map_congr_left (g := id), List.map_id]
    intro b hb
    simp [spacedByte, hclass b hb, hc]

theorem bytes_spaced (s : String) : bytes (spaced s) = (bytes s).map spacedByte := by
  rw [bytes, toList_spaced, List.flatMap_map, bytes, List.map_flatMap]
  simp only [utf8EncodeChar_spacedChar]

theorem utf8ByteSize_spaced (s : String) : (spaced s).utf8ByteSize = s.utf8ByteSize := by
  rw [← length_bytes, bytes_spaced, List.length_map, length_bytes]

theorem spaced_eq_iff {s s' : String} : spaced s = spaced s' ↔ SameButBlanks s s' := by
  rw [← bytes_inj, bytes_spaced, bytes_spaced]
  constructor
  · intro h
    refine ⟨?_, fun i b b' hb hb' => spacedByte_eq_iff.mp ?_⟩
    · have hlength := congrArg List.length h
      rwa [List.length_map, List.length_map, length_bytes, length_bytes] at hlength
    · rw [byte?_eq_getElem?] at hb hb'
      have hi := congrArg (·[i]?) h
      simpa [hb, hb'] using hi
  · intro h
    obtain ⟨hsize, hbytes⟩ := h
    refine List.ext_getElem (by simpa using hsize) fun i hi hi' => ?_
    rw [List.length_map] at hi hi'
    rw [List.getElem_map, List.getElem_map]
    apply spacedByte_eq_iff.mpr
    apply hbytes i
    · rw [byte?_eq_getElem?, List.getElem?_eq_getElem hi]
    · rw [byte?_eq_getElem?, List.getElem?_eq_getElem hi']

/-! ## Reading with spaces for blanks -/

theorem IsBlankText.spaced {w : String} (hw : IsBlankText w) : IsBlankText (spaced w) := by
  intro c hc
  rw [toList_spaced] at hc
  obtain ⟨d, hd, rfl⟩ := List.mem_map.mp hc
  rw [spacedChar, if_pos (hw d hd)]
  rfl

theorem IsLexeme.spaced_eq {k : Kind} {x : String} (hx : IsLexeme k x) : spaced x = x := by
  rw [← String.toList_inj, toList_spaced, List.map_congr_left (g := id), List.map_id]
  intro c hc
  simp [spacedChar, hx.isWhitespace_eq_false c hc]

theorem isWordChar_spacedChar (c : Char) : isWordChar (spacedChar c) = isWordChar c := by
  unfold spacedChar
  split
  · next hc =>
    rw [isWordChar_eq_false_of_isWhitespace hc]
    rfl
  · rfl

theorem isDigit_spacedChar (c : Char) : (spacedChar c).isDigit = c.isDigit := by
  unfold spacedChar
  split
  · next hc =>
    refine Eq.symm (Bool.eq_false_iff.mpr fun hd => ?_)
    have hw := isWordChar_of_isDigit hd
    rw [isWordChar_eq_false_of_isWhitespace hc] at hw
    cases hw
  · rfl

theorem continues_spaced_iff {x t : String} : Continues x (spaced t) ↔ Continues x t := by
  unfold Continues
  rw [toList_spaced, List.head?_map]
  cases t.toList.head? with
  | none => simp
  | some c => simp [isWordChar_spacedChar, isDigit_spacedChar]

theorem Reads.spaced {o : Nat} {r : String} {ts : List Token} (h : Reads o r ts) :
    Reads o (spaced r) ts := by
  induction h with
  | stop hw => exact .stop hw.spaced
  | @step o w x t k ts hw hx hmax _ ih =>
      have hsize := utf8ByteSize_spaced w
      rw [spaced_append, spaced_append, hx.spaced_eq, ← hsize]
      rw [← hsize] at ih
      exact .step hw.spaced hx (mt continues_spaced_iff.mp hmax) ih

theorem scanAll_spaced (s : String) (level : Level) :
    (Lexer.ofString (spaced s) level).scanAll.1 = (Lexer.ofString s level).scanAll.1 := by
  obtain ⟨ts, hts⟩ := exists_reads 0 s
  rw [Lexer.scanAll_eq_iff.mpr hts, Lexer.scanAll_eq_iff.mpr hts.spaced, utf8ByteSize_spaced]

/-! ## Tokens of sources that are the same but for blanks -/

/-- Under a token stand the bytes of its text. -/
theorem Tiles.byte?_eq {s : String} {ts : List Token} (h : Tiles s ts) {t : Token} (ht : t ∈ ts)
    {i : Nat} (hlo : t.span.lo ≤ i) (hhi : i < t.span.hi) :
    byte? s i = byte? t.text (i - t.span.lo) := by
  rw [byte?_eq_getElem?, byte?_eq_getElem?, h.bytes_text t ht, List.extract_eq_take_drop,
    List.getElem?_take_of_lt (by omega), List.getElem?_drop, Nat.add_sub_cancel' hlo]

theorem Reads.sameButBlanks {s s' : String} {ts : List Token} (h : Reads 0 s ts)
    (h' : Reads 0 s' ts) (hsize : s.utf8ByteSize = s'.utf8ByteSize) : SameButBlanks s s' := by
  refine ⟨hsize, fun i b b' hb hb' => ?_⟩
  by_cases hcover : ∃ t ∈ ts, t.span.lo ≤ i ∧ i < t.span.hi
  · left
    obtain ⟨t, ht, hlo, hhi⟩ := hcover
    rw [h.tiles.byte?_eq ht hlo hhi] at hb
    rw [h'.tiles.byte?_eq ht hlo hhi, hb] at hb'
    exact Option.some.inj hb'
  · right
    have hgap : ∀ t ∈ ts, i < t.span.lo ∨ t.span.hi ≤ i := by
      intro t ht
      rcases Nat.lt_or_ge i t.span.lo with hlo | hlo
      · exact .inl hlo
      · exact .inr (Nat.le_of_not_lt fun hhi => hcover ⟨t, ht, hlo, hhi⟩)
    exact ⟨h.tiles.gap_blank i b hb hgap, h'.tiles.gap_blank i b' hb' hgap⟩

/-- Two sources have the same tokens, spans and end token included, exactly when they have the same
bytes but for blanks that stand at the same places. -/
theorem scanAll_eq_scanAll_iff (s s' : String) (level : Level) :
    (Lexer.ofString s level).scanAll.1 = (Lexer.ofString s' level).scanAll.1 ↔
      SameButBlanks s s' := by
  constructor
  · intro h
    obtain ⟨ts, hts⟩ := exists_reads 0 s
    obtain ⟨ts', hts'⟩ := exists_reads 0 s'
    rw [Lexer.scanAll_eq_iff.mpr hts, Lexer.scanAll_eq_iff.mpr hts'] at h
    obtain ⟨rfl, heof⟩ := List.append_inj' h rfl
    have hsize : s.utf8ByteSize = s'.utf8ByteSize := by simpa [Token.eof, Span.point] using heof
    exact hts.sameButBlanks hts' hsize
  · intro h
    rw [← scanAll_spaced s, ← scanAll_spaced s', spaced_eq_iff.mpr h]

end TokenStream
