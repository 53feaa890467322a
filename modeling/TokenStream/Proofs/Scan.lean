import TokenStream.Proofs.Lexeme

/-!
# One scan

What one scan does at a boundary of a source, said once: either only blanks are left and it gives
the end token, or it skips blanks, takes the maximal lexeme behind them and stops at the boundary
after that. All later statements about scans rest on these two cases.
-/

namespace TokenStream

open Source

/-! ## The class of a byte -/

theorem Char.toNat_ofUInt8 (b : UInt8) : (Char.ofUInt8 b).toNat = b.toNat :=
  UInt8.toNat_toUInt32 b

theorem Kind.ofMark?_ofUInt8 {c : Char} {b : UInt8} (hb : b ∈ String.utf8EncodeChar c) :
    Kind.ofMark? (Char.ofUInt8 b) = Kind.ofMark? c := by
  rcases mem_utf8EncodeChar hb with ⟨hc, rfl⟩ | ⟨hc, hb⟩
  · have : Char.ofUInt8 (UInt8.ofNat c.toNat) = c := by
      apply Char.toNat_inj.mp
      rw [Char.toNat_ofUInt8, UInt8.toNat_ofNat']
      omega
    rw [this]
  · -- neither the character nor its byte is ASCII, and all marks are
    have none_above : ∀ d : Char, 0x80 ≤ d.toNat → Kind.ofMark? d = none := by
      intro d hd
      cases hm : Kind.ofMark? d with
      | none => rfl
      | some k => exact absurd (Kind.of_ofMark? hm).1.1 (by omega)
    have hd : 0x80 ≤ (Char.ofUInt8 b).toNat := by
      rw [Char.toNat_ofUInt8]
      exact UInt8.le_iff_toNat_le.mp hb
    rw [none_above _ hd, none_above _ hc]

theorem LexemeClass.ofByte_eq {c : Char} {b : UInt8} (hb : b ∈ String.utf8EncodeChar c) :
    ofByte b =
      if isWordHead c then word
      else if c.isDigit then number
      else match Kind.ofMark? c with
        | some k => mark k
        | none => if c.toNat < 0x80 then stray else foreign := by
  have hlt : b < 0x80 ↔ c.toNat < 0x80 := by
    rcases mem_utf8EncodeChar hb with ⟨hc, rfl⟩ | ⟨hc, hb'⟩
    · refine iff_of_true ?_ hc
      have h80 : (0x80 : UInt8).toNat = 0x80 := rfl
      rw [UInt8.lt_iff_toNat_lt, UInt8.toNat_ofNat', h80]
      omega
    · exact iff_of_false (UInt8.not_lt.mpr hb') (Nat.not_lt.mpr hc)
  simp only [ofByte, byteClass_isWordStart c b hb, byteClass_isDigit c b hb,
    Kind.ofMark?_ofUInt8 hb]
  cases Kind.ofMark? c with
  | none => simp only [hlt]
  | some k => rfl

theorem Char.utf8Size_of_toNat_lt {c : Char} (h : c.toNat < 0x80) : c.utf8Size = 1 := by
  rw [Char.utf8Size_eq_one_iff, UInt32.le_iff_toNat_le]
  exact Nat.le_of_lt_succ h

/-! ## The maximal lexeme -/

/-- The first byte of a maximal lexeme settles the class by which its end and its kind are found. -/
theorem IsLexeme.exists_class {k : Kind} {x t : String} (hx : IsLexeme k x)
    (ht : ¬Continues x t) (p : String) :
    ∃ b, byte? (x ++ t) 0 = some b ∧
      (LexemeClass.ofByte b).lexemeEnd (p ++ (x ++ t)) p.utf8ByteSize =
        p.utf8ByteSize + x.utf8ByteSize ∧
      (LexemeClass.ofByte b).kind x = k := by
  rw [continues_iff_byte?, not_or, not_and, not_and] at ht
  cases hx with
  | word hw =>
      obtain ⟨c, cs, hx, hc, -⟩ := id hw
      obtain ⟨b, hbc, hb⟩ := exists_byte?_zero c (String.ofList cs ++ t)
      rw [← String.append_assoc, ← eq_singleton_append hx] at hb
      have hcls : LexemeClass.ofByte b = .word := by simp [LexemeClass.ofByte_eq hbc, hc]
      refine ⟨b, hb, ?_, by rw [hcls]; rfl⟩
      rw [hcls]
      refine runEnd_append (byteClass_isWordByte.forall_bytes_iff.mpr hw.isWordChar) ?_
      intro b' hb'
      exact Bool.eq_false_iff.mpr fun h => ht.1 hw ⟨b', hb', h⟩
  | number hn =>
      obtain ⟨c, cs, hx, hc⟩ := hn.exists_cons
      obtain ⟨b, hbc, hb⟩ := exists_byte?_zero c (String.ofList cs ++ t)
      rw [← String.append_assoc, ← eq_singleton_append hx] at hb
      have hh := isWordHead_eq_false_of_isDigit hc
      have hcls : LexemeClass.ofByte b = .number := by simp [LexemeClass.ofByte_eq hbc, hh, hc]
      refine ⟨b, hb, ?_, by rw [hcls]; rfl⟩
      rw [hcls]
      refine runEnd_append (byteClass_isDigit.forall_bytes_iff.mpr hn.2) ?_
      intro b' hb'
      exact Bool.eq_false_iff.mpr fun h => ht.2 hn ⟨b', hb', h⟩
  | @mark c k hm =>
      obtain ⟨b, hbc, hb⟩ := exists_byte?_zero c t
      obtain ⟨⟨hlt, hw, -⟩, -⟩ := Kind.of_ofMark? hm
      rw [isWordChar_eq, Bool.or_eq_false_iff] at hw
      have hcls : LexemeClass.ofByte b = .mark k := by
        simp [LexemeClass.ofByte_eq hbc, hw.1, hw.2, hm]
      refine ⟨b, hb, ?_, by rw [hcls]; rfl⟩
      rw [hcls, String.utf8ByteSize_singleton, Char.utf8Size_of_toNat_lt hlt]
      rfl
  | @other c _ hw hm =>
      obtain ⟨b, hbc, hb⟩ := exists_byte?_zero c t
      rw [isWordChar_eq, Bool.or_eq_false_iff] at hw
      by_cases hlt : c.toNat < 0x80
      · have hcls : LexemeClass.ofByte b = .stray := by
          simp [LexemeClass.ofByte_eq hbc, hw.1, hw.2, hm, hlt]
        refine ⟨b, hb, ?_, by rw [hcls]; rfl⟩
        rw [hcls, String.utf8ByteSize_singleton, Char.utf8Size_of_toNat_lt hlt]
        rfl
      · have hcls : LexemeClass.ofByte b = .foreign := by
          simp [LexemeClass.ofByte_eq hbc, hw.1, hw.2, hm, hlt]
        refine ⟨b, hb, ?_, by rw [hcls]; rfl⟩
        rw [hcls, LexemeClass.lexemeEnd, char?_append, String.utf8ByteSize_singleton]
        rfl

/-! ## Cutting a text at its first lexeme -/

theorem isBlankText_ofList_takeWhile (cs : List Char) :
    IsBlankText (String.ofList (cs.takeWhile Char.isWhitespace)) := by
  intro c hc
  rw [String.toList_ofList] at hc
  exact List.all_eq_true.mp List.all_takeWhile c hc

theorem eq_false_of_head?_dropWhile {q : Char → Bool} {cs : List Char} {c : Char}
    (h : (cs.dropWhile q).head? = some c) : q c = false := by
  have := List.head?_dropWhile_not q cs
  rw [h] at this
  exact this

theorem exists_maximal_lexeme {c : Char} (hc : c.isWhitespace = false) (cs : List Char) :
    ∃ k x t, String.ofList (c :: cs) = x ++ t ∧ IsLexeme k x ∧ ¬Continues x t := by
  have run (q : Char → Bool) : String.ofList (c :: cs) =
      String.ofList (c :: cs.takeWhile q) ++ String.ofList (cs.dropWhile q) := by
    rw [← String.ofList_append, List.cons_append, List.takeWhile_append_dropWhile]
  by_cases hh : isWordHead c = true
  · have hw : IsWord (String.ofList (c :: cs.takeWhile isWordChar)) :=
      ⟨c, _, String.toList_ofList, hh, List.all_eq_true.mp List.all_takeWhile⟩
    refine ⟨_, _, _, run isWordChar, .word hw, ?_⟩
    rintro ⟨d, hd, ⟨-, h⟩ | ⟨hn, -⟩⟩
    · rw [String.toList_ofList] at hd
      rw [eq_false_of_head?_dropWhile hd] at h
      cases h
    · exact hw.not_isNumeral hn
  · by_cases hdig : c.isDigit = true
    · have hn : IsNumeral (String.ofList (c :: cs.takeWhile Char.isDigit)) := by
        refine ⟨by simp, ?_⟩
        intro d hd
        rw [String.toList_ofList] at hd
        rcases List.mem_cons.mp hd with rfl | hd
        · exact hdig
        · exact List.all_eq_true.mp List.all_takeWhile d hd
      refine ⟨_, _, _, run Char.isDigit, .number hn, ?_⟩
      rintro ⟨d, hd, ⟨hw, -⟩ | ⟨-, h⟩⟩
      · exact hw.not_isNumeral hn
      · rw [String.toList_ofList] at hd
        rw [eq_false_of_head?_dropWhile hd] at h
        cases h
    · have hw : isWordChar c = false := by
        rw [isWordChar_eq]
        simp [hh, hdig]
      have single : String.ofList (c :: cs) = String.singleton c ++ String.ofList cs :=
        eq_singleton_append String.toList_ofList
      have hstop := not_continues_singleton hw
      cases hm : Kind.ofMark? c with
      | none => exact ⟨_, _, _, single, .other hc hw hm, hstop _⟩
      | some k => exact ⟨_, _, _, single, .mark hm, hstop _⟩

/-- A text is blank, or it is blanks, a maximal lexeme and a rest. -/
theorem isBlankText_or_exists_lexeme (r : String) :
    IsBlankText r ∨ ∃ w k x t, r = w ++ (x ++ t) ∧ IsBlankText w ∧ IsLexeme k x ∧
      ¬Continues x t := by
  have hsplit : r = String.ofList (r.toList.takeWhile Char.isWhitespace) ++
      String.ofList (r.toList.dropWhile Char.isWhitespace) := by
    rw [← String.ofList_append, List.takeWhile_append_dropWhile, String.ofList_toList]
  have hblank := isBlankText_ofList_takeWhile r.toList
  cases hd : r.toList.dropWhile Char.isWhitespace with
  | nil =>
      left
      rw [hd, String.ofList_nil, String.append_empty] at hsplit
      rwa [hsplit]
  | cons c cs =>
      right
      have hc : c.isWhitespace = false := eq_false_of_head?_dropWhile (by rw [hd]; rfl)
      obtain ⟨k, x, t, hx, hlex, hmax⟩ := exists_maximal_lexeme hc cs
      rw [hd, hx] at hsplit
      exact ⟨_, k, x, t, hsplit, hblank, hlex, hmax⟩

/-! ## The two cases of a scan -/

namespace Cursor

/-- The cursor stands between two parts of its source. -/
structure At (c : Cursor) (p r : String) : Prop where
  source_eq : c.source = p ++ r
  pos_eq : c.pos = p.utf8ByteSize

variable {c : Cursor} {p r : String}

theorem At.runEnd_isBlank {w t : String} (h : c.At p (w ++ t)) (hw : IsBlankText w)
    (ht : ∀ b, byte? t 0 = some b → isBlank b = false) :
    runEnd isBlank c.source c.pos = p.utf8ByteSize + w.utf8ByteSize := by
  rw [h.source_eq, h.pos_eq]
  exact runEnd_append (byteClass_isBlank.forall_bytes_iff.mpr hw) ht

theorem At.runEnd_of_isBlankText (h : c.At p r) (hr : IsBlankText r) :
    runEnd isBlank c.source c.pos = c.source.utf8ByteSize := by
  rw [At.runEnd_isBlank (w := r) (t := "") (by rwa [String.append_empty]) hr,
    h.source_eq, String.utf8ByteSize_append]
  intro b hb
  simp [byte?] at hb

/-- With only blanks left, a scan gives the end token and stops at the end. -/
theorem At.scan_of_isBlankText (h : c.At p r) (hr : IsBlankText r) :
    c.scan = (.eof c.source.utf8ByteSize,
      ⟨c.source, c.source.utf8ByteSize, c.source.utf8ByteSize⟩) := by
  have hend := h.runEnd_of_isBlankText hr
  have hb : byte? c.source c.source.utf8ByteSize = none := byte?_eq_none_iff.mpr (Nat.le_refl _)
  simp only [scan, hend, hb]

/-- In front of a maximal lexeme, the byte behind the blanks leads to it. -/
theorem At.exists_byte? {w x t : String} {k : Kind} (h : c.At p (w ++ (x ++ t)))
    (hw : IsBlankText w) (hx : IsLexeme k x) (ht : ¬Continues x t) :
    runEnd isBlank c.source c.pos = p.utf8ByteSize + w.utf8ByteSize ∧
      ∃ b, byte? c.source (p.utf8ByteSize + w.utf8ByteSize) = some b ∧
        (LexemeClass.ofByte b).lexemeEnd c.source (p.utf8ByteSize + w.utf8ByteSize) =
          p.utf8ByteSize + w.utf8ByteSize + x.utf8ByteSize ∧
        (LexemeClass.ofByte b).kind x = k := by
  obtain ⟨b, hb, hend, hkind⟩ := hx.exists_class ht (p ++ w)
  have hsrc : c.source = p ++ w ++ (x ++ t) := by rw [h.source_eq, String.append_assoc]
  rw [← hsrc, String.utf8ByteSize_append] at hend
  refine ⟨h.runEnd_isBlank hw ?_, b, ?_, hend, hkind⟩
  · intro b' hb'
    refine Bool.eq_false_iff.mpr fun hblank => ?_
    obtain ⟨d, hd, hspace⟩ := byteClass_isBlank.exists_byte?_iff.mp ⟨b', hb', hblank⟩
    obtain ⟨e, cs, he⟩ := hx.exists_cons
    rw [String.toList_append, he, List.cons_append, List.head?_cons, Option.some.injEq] at hd
    subst hd
    rw [hx.isWhitespace_eq_false e (by simp [he])] at hspace
    cases hspace
  · rw [hsrc, ← String.utf8ByteSize_append, byte?_append_end, hb]

/-- In front of a maximal lexeme, a scan gives it as a token and stops behind it. -/
theorem At.scan_of_isLexeme {w x t : String} {k : Kind} (h : c.At p (w ++ (x ++ t)))
    (hw : IsBlankText w) (hx : IsLexeme k x) (ht : ¬Continues x t) :
    c.scan =
      (⟨k, x, ⟨p.utf8ByteSize + w.utf8ByteSize,
          p.utf8ByteSize + w.utf8ByteSize + x.utf8ByteSize⟩⟩,
        ⟨c.source, p.utf8ByteSize + w.utf8ByteSize,
          p.utf8ByteSize + w.utf8ByteSize + x.utf8ByteSize⟩) := by
  obtain ⟨hlo, b, hbyte, hend, hkind⟩ := h.exists_byte? hw hx ht
  have hslice : slice? c.source (p.utf8ByteSize + w.utf8ByteSize)
      (p.utf8ByteSize + w.utf8ByteSize + x.utf8ByteSize) = some x := by
    rw [h.source_eq, ← String.append_assoc, ← String.utf8ByteSize_append, slice?_append]
  simp only [scan, hlo, hbyte, hend, hslice, Option.getD_some, hkind]

theorem At.behind {w x t : String} (h : c.At p (w ++ (x ++ t))) (lo : Nat) :
    At ⟨c.source, lo, p.utf8ByteSize + w.utf8ByteSize + x.utf8ByteSize⟩ (p ++ w ++ x) t where
  source_eq := by
    rw [h.source_eq, String.append_assoc, String.append_assoc]
  pos_eq := by rw [String.utf8ByteSize_append, String.utf8ByteSize_append]

end Cursor

end TokenStream
